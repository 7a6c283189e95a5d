import Masadan.Cards

/-!
# The screen in the kitchen

`DeskBoard`, in the browser of the kitchen, and the stream it listens to. The screen fetches
the orders when it is opened, once a minute, and whenever it hears on the stream that an
order was placed or changed. A tap on a card changes it on the screen at once; the request
follows, and after the request another fetch.

What is on the screen can be wrong in between: events are under way, a tap was refused, a
fetch was overtaken by a later one. `board_settles` says where it leads. From a fetch on that
is sent while the stream is up, if neither the stream nor the server breaks off and the
response to the last fetch is the last to arrive, then once everything is quiet the screen
shows the orders as they are, or says that it could not load them.

Two things on the cards are left out, since nobody announces them: the table's name, and how
far the printer is. For these the screen waits for its timer.
-/

namespace Masadan

/-! ## What is told of the board -/

/-- A card of the board without what nobody announces. -/
def DeskOrder.told (d : DeskOrder) : DeskOrder := { d with tableName := [], posStatus := none }

/-- The card of an order of the venue. -/
def World.cardOf (w : World) (venueId k : Id) : Option Card :=
  (w.card k).filter (fun c => c.order.venueId == venueId)

/-- What the desk's stream passes on: the filter of `/api/desk/stream`. -/
def deskPasses (venueId : Id) : BusEvent → Bool
  | .order_created v _ _ _ | .order_updated v _ _ _ | .bill_requested v _ _ | .bill_updated v _ _
  | .visit_closed v _ _ => v == venueId
  | _ => false

/-- A fetch in flight, and the thread of the server that serves it, unless the connection is
broken. -/
structure Fetch where
  serial : ℕ
  thread : Option ℕ
  deriving DecidableEq, Repr

/-- **The screen.** `inbox` counts the published events that it has heard or missed, and `sent`
the fetches so far; `answered` is the one whose response, or failure, came last. -/
structure Screen where
  orders : List DeskOrder
  loadError : Bool
  /-- The session has ended, and the screen with it. -/
  gone : Bool
  connected : Bool
  inbox : ℕ
  loads : List Fetch
  /-- The requests of taps in flight. -/
  moves : List (Option ℕ)
  sent : ℕ
  answered : Option ℕ

/-- The screen when it is opened. -/
def Screen.blank : Screen := ⟨[], false, false, false, 0, [], [], 0, none⟩

/-- The response to a fetch: what `load` does with it. -/
def Screen.loaded (s : Screen) : Except DbError HouseAnswer → Screen
  | .ok (.deskOrders (.ok orders)) => { s with orders := orders, loadError := false }
  | .ok (.deskOrders .unauthorized) => { s with gone := true }
  | _ => { s with loadError := true }

/-- The process at the other end has gone. -/
def Screen.broken (s : Screen) : Screen :=
  { s with
    connected := false
    loads := s.loads.map (fun l => { l with thread := none })
    moves := s.moves.map (fun _ => none) }

/-- A card is tapped, and shows the new status before anybody was asked. -/
def Screen.tap (s : Screen) (id : Id) (status : OrderStatus) (rejectReason : Option Text) : Screen :=
  { s with orders := s.orders.map (fun o =>
      if o.id = id then { o with status := status, rejectReason := rejectReason } else o) }

section

variable (hmac : Hmac) (bcrypt : Bcrypt)

/-- **The server, and a screen in the kitchen.** -/
structure Kitchen where
  pool : (house hmac bcrypt).Pool
  screen : Screen

/-- What can happen: anything at the server, or something on the way to the screen or from
it. -/
inductive KitchenAction where
  | house (a : (house hmac bcrypt).Action)
  | connect
  | disconnect
  /-- The next event is at the screen. -/
  | hear
  /-- The screen fetches: its timer, or its opening, or after a correction or a settlement. -/
  | load
  /-- The response to the `n`-th fetch in flight arrives. -/
  | loaded (n : ℕ)
  | loadFails (n : ℕ)
  | tap (id : Id) (status : OrderStatus) (rejectReason : Option Text)
  /-- The response to the `n`-th tap in flight arrives. -/
  | moved (n : ℕ)
  | moveFails (n : ℕ)

end

namespace Kitchen

section

variable {hmac : Hmac} {bcrypt : Bcrypt} (token : TokenClaims)

/-- `load`: a request arrives at the server. -/
def load (k : Kitchen hmac bcrypt) : Kitchen hmac bcrypt where
  pool := k.pool.act (.arrive (.staff (some token) (.deskOrders none)))
  screen := { k.screen with
    loads := k.screen.loads ++ [⟨k.screen.sent, some k.pool.threads.length⟩]
    sent := k.screen.sent + 1 }

/-- **Let one thing happen.** -/
def act (k : Kitchen hmac bcrypt) : KitchenAction hmac bcrypt → Kitchen hmac bcrypt
  | .house a => ⟨k.pool.act a, match a with
    | .env .crash => k.screen.broken
    | _ => k.screen⟩
  | .connect =>
    if k.screen.connected then k
    else ⟨k.pool, { k.screen with
      connected := true
      inbox := k.pool.world.published.length }⟩
  | .disconnect => ⟨k.pool, { k.screen with connected := false }⟩
  | .hear =>
    if k.screen.connected then
      match k.pool.world.published[k.screen.inbox]? with
      | none => k
      | some e =>
        let k' : Kitchen hmac bcrypt := ⟨k.pool, { k.screen with inbox := k.screen.inbox + 1 }⟩
        -- of a bill, only the bills are fetched
        if deskPasses token.venueId e && e.orderOf.isSome then k'.load token else k'
    else k
  | .load => k.load token
  | .loaded n =>
    match k.screen.loads[n]? with
    | none => k
    | some l =>
      match l.thread.bind k.pool.outcome with
      | none => k
      | some x =>
        let s : Screen := { k.screen with
          loads := k.screen.loads.eraseIdx n
          answered := some l.serial }
        ⟨k.pool, s.loaded x⟩
  | .loadFails n =>
    match k.screen.loads[n]? with
    | none => k
    | some l => ⟨k.pool, { k.screen with
        loads := k.screen.loads.eraseIdx n
        answered := some l.serial
        loadError := true }⟩
  | .tap id status rejectReason =>
    let s : Screen := { k.screen with moves := k.screen.moves ++ [some k.pool.threads.length] }
    ⟨k.pool.act (.arrive (.staff (some token) (.patchOrder id ⟨some status, rejectReason⟩))),
      s.tap id status rejectReason⟩
  | .moved n =>
    match k.screen.moves[n]? with
    | none => k
    | some i =>
      match i.bind k.pool.outcome with
      | none => k
      | some _ =>
        let k' : Kitchen hmac bcrypt :=
          ⟨k.pool, { k.screen with moves := k.screen.moves.eraseIdx n }⟩
        k'.load token
  | .moveFails n =>
    match k.screen.moves[n]? with
    | none => k
    | some _ =>
      let k' : Kitchen hmac bcrypt := ⟨k.pool, { k.screen with
        moves := k.screen.moves.eraseIdx n
        loadError := true }⟩
      k'.load token

/-- **A run.** -/
def run (k : Kitchen hmac bcrypt) (acts : List (KitchenAction hmac bcrypt)) : Kitchen hmac bcrypt :=
  acts.foldl (act token) k

/-- Neither the server nor the stream breaks off. -/
def holds : KitchenAction hmac bcrypt → Bool
  | .house (.env .crash) | .disconnect => false
  | _ => true

abbrev Holds (a : KitchenAction hmac bcrypt) : Prop := holds a = true

variable {token}

theorem run_cons (k : Kitchen hmac bcrypt) (a : KitchenAction hmac bcrypt)
    (acts : List (KitchenAction hmac bcrypt)) :
    k.run token (a :: acts) = (k.act token a).run token acts := rfl

theorem run_append (k : Kitchen hmac bcrypt) (as bs : List (KitchenAction hmac bcrypt)) :
    k.run token (as ++ bs) = (k.run token as).run token bs := List.foldl_append

/-! ## Steps of the screen -/

/-- The kitchen when a fetch is sent: what has become of `k` before. -/
structure Fetches (k g : Kitchen hmac bcrypt) : Prop where
  house : g.pool = k.pool
  sent : g.screen.sent = k.screen.sent
  answered : g.screen.answered = k.screen.answered
  loads : g.screen.loads = k.screen.loads
  connected : g.screen.connected = k.screen.connected
  inbox : k.screen.inbox ≤ g.screen.inbox
  bound : k.screen.inbox ≤ k.pool.world.published.length →
    g.screen.inbox ≤ k.pool.world.published.length

/-- What becomes of the picture when no fetch is sent. -/
inductive Pictured (k k' : Kitchen hmac bcrypt) : Prop
  | same (orders : k'.screen.orders = k.screen.orders) (gone : k'.screen.gone = k.screen.gone)
    (loadError : k'.screen.loadError = k.screen.loadError)
    (answered : k'.screen.answered = k.screen.answered)
  | tapped (moves : k.screen.moves.length < k'.screen.moves.length)
    (answered : k'.screen.answered = k.screen.answered)
  | loaded {l : Fetch} {x : Except DbError HouseAnswer} {s : Screen} (hl : l ∈ k.screen.loads)
    (hx : l.thread.bind k.pool.outcome = some x) (hs : s.answered = some l.serial)
    (screen : k'.screen = s.loaded x)
  | failed {l : Fetch} (hl : l ∈ k.screen.loads) (answered : k'.screen.answered = some l.serial)
    (loadError : k'.screen.loadError = true)

/-- What a step does at the server: nothing, or one thing, which ends no process while everything
holds. -/
def Acts (a : KitchenAction hmac bcrypt) (p p' : (house hmac bcrypt).Pool) : Prop :=
  p' = p ∨ ∃ x, p' = p.act x ∧ (Holds a → x ≠ .env .crash)

/-- **A step that sends no fetch.** While everything holds, the stream brings nothing of an
order, and no tap is answered. -/
structure Waits (token : TokenClaims) (a : KitchenAction hmac bcrypt) (k k' : Kitchen hmac bcrypt) :
    Prop where
  house : Acts a k.pool k'.pool
  sent : k'.screen.sent = k.screen.sent
  moves : k.screen.moves.length ≤ k'.screen.moves.length
  connected : Holds a → k.screen.connected = true → k'.screen.connected = true
  inbox : Holds a → k.screen.connected = true → k.screen.inbox ≤ k'.screen.inbox
    ∧ ∀ j e, k.screen.inbox ≤ j → j < k'.screen.inbox → k.pool.world.published[j]? = some e →
      ¬ (deskPasses token.venueId e = true ∧ e.orderOf.isSome)
  bound : k.screen.inbox ≤ k.pool.world.published.length →
    k'.screen.inbox ≤ k.pool.world.published.length
  loads : ∀ l' ∈ k'.screen.loads, ∃ l ∈ k.screen.loads, l'.serial = l.serial ∧ (Holds a → l' = l)
  picture : Pictured k k'

theorem Waits.refl (a : KitchenAction hmac bcrypt) (k : Kitchen hmac bcrypt) : Waits token a k k where
  house := .inl rfl
  sent := rfl
  moves := le_refl _
  connected _ h := h
  inbox _ _ := ⟨le_refl _, fun _ _ hj hj' => absurd hj' (not_lt.mpr hj)⟩
  bound h := h
  loads l hl := ⟨l, hl, rfl, fun _ => rfl⟩
  picture := .same rfl rfl rfl rfl

/-- A step of the server alone. -/
theorem waits_house {a : (house hmac bcrypt).Action} {k k' : Kitchen hmac bcrypt}
    (hhouse : k'.pool = k.pool.act a) (ha : a ≠ .env .crash) (h : k'.screen = k.screen) :
    Waits token (.house a) k k' where
  house := .inr ⟨a, hhouse, fun _ => ha⟩
  sent := congrArg _ h
  moves := (congrArg (fun s : Screen => s.moves.length) h).ge
  connected _ hk := (congrArg Screen.connected h).trans hk
  inbox _ _ := ⟨(congrArg Screen.inbox h).ge, fun _ _ hj hj' => absurd (h ▸ hj') (not_lt.mpr hj)⟩
  bound hk := (congrArg Screen.inbox h).trans_le hk
  loads l hl := ⟨l, h ▸ hl, rfl, fun _ => rfl⟩
  picture := .same (congrArg _ h) (congrArg _ h) (congrArg _ h) (congrArg _ h)

@[simp] theorem loaded_sent (s : Screen) (x : Except DbError HouseAnswer) :
    (s.loaded x).sent = s.sent ∧ (s.loaded x).moves = s.moves ∧ (s.loaded x).connected = s.connected
      ∧ (s.loaded x).inbox = s.inbox ∧ (s.loaded x).loads = s.loads
      ∧ (s.loaded x).answered = s.answered := by
  unfold Screen.loaded
  split
  · exact ⟨rfl, rfl, rfl, rfl, rfl, rfl⟩
  · exact ⟨rfl, rfl, rfl, rfl, rfl, rfl⟩
  · exact ⟨rfl, rfl, rfl, rfl, rfl, rfl⟩

variable (token) in
/-- **A step sends a fetch, or sends none.** -/
theorem act_cases (k : Kitchen hmac bcrypt) (a : KitchenAction hmac bcrypt) :
    (∃ g, Fetches k g ∧ k.act token a = g.load token) ∨ Waits token a k (k.act token a) := by
  have hfetches : ∀ {s : Screen}, s.sent = k.screen.sent → s.answered = k.screen.answered →
      s.loads = k.screen.loads → s.connected = k.screen.connected → s.inbox = k.screen.inbox →
      Fetches k ⟨k.pool, s⟩ := fun h₁ h₂ h₃ h₄ h₅ =>
    ⟨rfl, h₁, h₂, h₃, h₄, h₅.ge, fun h => h₅.trans_le h⟩
  cases a with
  | house a =>
    right
    by_cases hcrash : a = .env .crash
    · subst hcrash
      exact {
        house := .inr ⟨.env .crash, rfl, fun h => Bool.noConfusion h⟩
        sent := rfl
        moves := (List.length_map _).ge
        connected := fun h => Bool.noConfusion h
        inbox := fun h => Bool.noConfusion h
        bound := fun h => h
        loads := fun l' hl' => by
          obtain ⟨l, hl, rfl⟩ := List.mem_map.mp hl'
          exact ⟨l, hl, rfl, fun h => Bool.noConfusion h⟩
        picture := .same rfl rfl rfl rfl }
    · refine waits_house rfl hcrash ?_
      cases a with
      | env e =>
        cases e with
        | crash => exact absurd rfl hcrash
        | _ => rfl
      | _ => rfl
  | connect =>
    right
    unfold act
    dsimp only
    split
    · exact .refl _ _
    · next hoff =>
      exact {
        house := .inl rfl
        sent := rfl
        moves := le_refl _
        connected := fun _ _ => rfl
        inbox := fun _ h => absurd h hoff
        bound := fun _ => le_refl _
        loads := fun l hl => ⟨l, hl, rfl, fun _ => rfl⟩
        picture := .same rfl rfl rfl rfl }
  | disconnect =>
    right
    exact {
      house := .inl rfl
      sent := rfl
      moves := le_refl _
      connected := fun h => Bool.noConfusion h
      inbox := fun h => Bool.noConfusion h
      bound := fun h => h
      loads := fun l hl => ⟨l, hl, rfl, fun h => Bool.noConfusion h⟩
      picture := .same rfl rfl rfl rfl }
  | hear =>
    unfold act
    dsimp only
    split
    · split
      · exact .inr (.refl _ _)
      · next e he =>
        have hlt := (List.getElem?_eq_some_iff.mp he).1
        split
        · exact .inl ⟨⟨k.pool, { k.screen with inbox := k.screen.inbox + 1 }⟩,
            ⟨rfl, rfl, rfl, rfl, rfl, Nat.le_succ _, fun _ => hlt⟩, rfl⟩
        · next hpass =>
          right
          exact {
            house := .inl rfl
            sent := rfl
            moves := le_refl _
            connected := fun _ h => h
            inbox := fun _ _ => ⟨Nat.le_succ _, fun j e' hj hj' he' => by
              obtain rfl : j = k.screen.inbox := Nat.le_antisymm (Nat.lt_succ_iff.mp hj') hj
              cases he.symm.trans he'
              rwa [Bool.and_eq_true] at hpass⟩
            bound := fun _ => hlt
            loads := fun l hl => ⟨l, hl, rfl, fun _ => rfl⟩
            picture := .same rfl rfl rfl rfl }
    · exact .inr (.refl _ _)
  | load => exact .inl ⟨k, hfetches rfl rfl rfl rfl rfl, rfl⟩
  | loaded n =>
    right
    unfold act
    dsimp only
    split
    · exact .refl _ _
    · next l hl =>
      split
      · exact .refl _ _
      · next x hx =>
        obtain ⟨hsent, hmoves, hconnected, hinbox, hloads, hanswered⟩ := loaded_sent
          { k.screen with loads := k.screen.loads.eraseIdx n, answered := some l.serial } x
        exact {
          house := .inl rfl
          sent := hsent
          moves := (congrArg List.length hmoves).ge
          connected := fun _ h => hconnected.trans h
          inbox := fun _ _ => ⟨hinbox.ge, fun j e hj hj' =>
            absurd (hj'.trans_eq hinbox) (not_lt.mpr hj)⟩
          bound := fun h => hinbox.trans_le h
          loads := fun l' hl' => ⟨l', List.mem_of_mem_eraseIdx (hloads ▸ hl'), rfl, fun _ => rfl⟩
          picture := .loaded (List.mem_of_getElem? hl) hx rfl rfl }
  | loadFails n =>
    right
    unfold act
    dsimp only
    split
    · exact .refl _ _
    · next l hl =>
      exact {
        house := .inl rfl
        sent := rfl
        moves := le_refl _
        connected := fun _ h => h
        inbox := fun _ _ => ⟨le_refl _, fun _ _ hj hj' => absurd hj' (not_lt.mpr hj)⟩
        bound := fun h => h
        loads := fun l' hl' => ⟨l', List.mem_of_mem_eraseIdx hl', rfl, fun _ => rfl⟩
        picture := .failed (List.mem_of_getElem? hl) rfl rfl }
  | tap id status rejectReason =>
    right
    have hmore : k.screen.moves.length < (k.screen.moves ++ [some k.pool.threads.length]).length := by
      rw [List.length_append]
      exact Nat.lt_succ_self _
    exact {
      house := .inr ⟨.arrive (.staff (some token) (.patchOrder id ⟨some status, rejectReason⟩)), rfl,
        fun _ h => by cases h⟩
      sent := rfl
      moves := hmore.le
      connected := fun _ h => h
      inbox := fun _ _ => ⟨le_refl _, fun _ _ hj hj' => absurd hj' (not_lt.mpr hj)⟩
      bound := fun h => h
      loads := fun l hl => ⟨l, hl, rfl, fun _ => rfl⟩
      picture := .tapped hmore rfl }
  | moved n =>
    unfold act
    dsimp only
    split
    · exact .inr (.refl _ _)
    · split
      · exact .inr (.refl _ _)
      · exact .inl ⟨⟨k.pool, { k.screen with moves := k.screen.moves.eraseIdx n }⟩,
          hfetches rfl rfl rfl rfl rfl, rfl⟩
  | moveFails n =>
    unfold act
    dsimp only
    split
    · exact .inr (.refl _ _)
    · exact .inl ⟨⟨k.pool, { k.screen with
          moves := k.screen.moves.eraseIdx n
          loadError := true }⟩, hfetches rfl rfl rfl rfl rfl, rfl⟩

variable (token) in
theorem act_house (k : Kitchen hmac bcrypt) (a : KitchenAction hmac bcrypt) :
    Acts a k.pool (k.act token a).pool := by
  rcases k.act_cases token a with ⟨g, hg, heq⟩ | h
  · rw [heq, ← hg.house]
    exact .inr ⟨.arrive (.staff (some token) (.deskOrders none)), rfl, fun _ h => by cases h⟩
  · exact h.house

variable (token) in
theorem run_house (k : Kitchen hmac bcrypt) (acts : List (KitchenAction hmac bcrypt)) :
    ∃ as, (k.run token acts).pool = k.pool.run as
      ∧ ((∀ a ∈ acts, Holds a) → ∀ b ∈ as, b ≠ .env .crash) := by
  induction acts generalizing k with
  | nil => exact ⟨[], rfl, fun _ _ hb => absurd hb List.not_mem_nil⟩
  | cons a as ih =>
    obtain ⟨ys, hys, hup⟩ := ih (k.act token a)
    have hlater : (∀ b ∈ a :: as, Holds b) → ∀ b ∈ as, Holds b :=
      fun hall b hb => hall b (List.mem_cons_of_mem _ hb)
    rcases k.act_house token a with hsame | ⟨x, hx, hne⟩
    · exact ⟨ys, by rw [run_cons, hys, hsame], fun hall => hup (hlater hall)⟩
    · refine ⟨x :: ys, by rw [run_cons, hys, hx, Sys.Pool.run_cons], fun hall b hb => ?_⟩
      rcases List.mem_cons.mp hb with rfl | hb
      · exact hne (hall a List.mem_cons_self)
      · exact hup (hlater hall) b hb

variable (token) in
/-- Fetches are counted, and a tap is forgotten only for a fetch. -/
theorem run_counts (k : Kitchen hmac bcrypt) (acts : List (KitchenAction hmac bcrypt)) :
    k.screen.sent ≤ (k.run token acts).screen.sent
      ∧ ((k.run token acts).screen.sent = k.screen.sent →
        k.screen.moves.length ≤ (k.run token acts).screen.moves.length) := by
  induction acts generalizing k with
  | nil => exact ⟨le_refl _, fun _ => le_refl _⟩
  | cons a as ih =>
    obtain ⟨hsent, hmoves⟩ := ih (k.act token a)
    rw [run_cons]
    rcases k.act_cases token a with ⟨g, hg, heq⟩ | h
    · have hmore : (k.act token a).screen.sent = k.screen.sent + 1 := by
        rw [heq, ← hg.sent]
        rfl
      exact ⟨(Nat.le_succ _).trans (hmore.ge.trans hsent), fun hsame => absurd hsent (by omega)⟩
    · exact ⟨h.sent.ge.trans hsent, fun hsame => h.moves.trans (hmoves (hsame.trans h.sent.symm))⟩

/-- The screen of `k`, while it waits for no later fetch. -/
theorem waits_of_last {k : Kitchen hmac bcrypt} {a : KitchenAction hmac bcrypt}
    {as : List (KitchenAction hmac bcrypt)}
    (hlast : (k.run token (a :: as)).screen.sent = k.screen.sent) :
    Waits token a k (k.act token a) := by
  rcases k.act_cases token a with ⟨g, hg, heq⟩ | h
  · have hmore : (k.act token a).screen.sent = k.screen.sent + 1 := by
      rw [heq, ← hg.sent]
      rfl
    have hle := ((k.act token a).run_counts token as).1
    rw [run_cons] at hlast
    omega
  · exact h

/-- **The records of the screen make sense**, and its server is one of a run. -/
structure Sane (w₀ : World) (k : Kitchen hmac bcrypt) : Prop where
  house : ∃ as, k.pool = houseRun hmac bcrypt w₀ as
  answered : ∀ n, k.screen.answered = some n → n < k.screen.sent
  loads : ∀ l ∈ k.screen.loads, l.serial < k.screen.sent
  inbox : k.screen.inbox ≤ k.pool.world.published.length

variable (token) in
/-- What is published stays. -/
theorem published_act {w₀ : World} (h₀ : Coherent w₀) {k : Kitchen hmac bcrypt} (hk : Sane w₀ k)
    (acts : List (KitchenAction hmac bcrypt)) :
    Kept k.pool.world (k.run token acts).pool.world := by
  obtain ⟨pre, hpre⟩ := hk.house
  obtain ⟨as, has, _⟩ := k.run_house token acts
  have hkept := (house_moved hmac bcrypt w₀ pre as h₀).2
  rw [houseRun, houseRun, Sys.Pool.run_append] at hkept
  rw [has, hpre]
  exact hkept

variable (token) in
theorem sane_act {w₀ : World} (h₀ : Coherent w₀) {k : Kitchen hmac bcrypt} (hk : Sane w₀ k)
    (a : KitchenAction hmac bcrypt) : Sane w₀ (k.act token a) := by
  have hhouse : ∃ as, (k.act token a).pool = houseRun hmac bcrypt w₀ as := by
    obtain ⟨pre, hpre⟩ := hk.house
    rcases k.act_house token a with hsame | ⟨x, hx, _⟩
    · exact ⟨pre, hsame.trans hpre⟩
    · exact ⟨pre ++ [x], by rw [hx, hpre, houseRun, houseRun, Sys.Pool.run_append]; rfl⟩
  have hlen : k.pool.world.published.length ≤ (k.act token a).pool.world.published.length :=
    (published_act token h₀ hk [a]).published.length_le
  rcases k.act_cases token a with ⟨g, hg, heq⟩ | h
  · have hinbox := hg.bound hk.inbox
    refine ⟨hhouse, ?_, ?_, hlen.trans' ?_⟩
    · rw [heq]
      exact fun n hn => ((hk.answered n (hg.answered ▸ hn)).trans_eq hg.sent.symm).trans
        (Nat.lt_succ_self _)
    · rw [heq]
      intro l hl
      rcases List.mem_append.mp hl with hl | hl
      · exact ((hk.loads l (hg.loads ▸ hl)).trans_eq hg.sent.symm).trans (Nat.lt_succ_self _)
      · obtain rfl := List.mem_singleton.mp hl
        exact Nat.lt_succ_self _
    · rw [heq]
      exact hinbox
  · refine ⟨hhouse, fun n hn => ?_, fun l' hl' => ?_, (h.bound hk.inbox).trans hlen⟩
    · rw [h.sent]
      cases h.picture with
      | same _ _ _ hsame => exact hk.answered n (hsame ▸ hn)
      | tapped _ hsame => exact hk.answered n (hsame ▸ hn)
      | loaded hl _ hs hscreen =>
        rw [hscreen, (loaded_sent _ _).2.2.2.2.2, hs] at hn
        cases hn
        exact hk.loads _ hl
      | failed hl hs _ =>
        rw [hs] at hn
        cases hn
        exact hk.loads _ hl
    · obtain ⟨l, hl, hserial, _⟩ := h.loads l' hl'
      rw [h.sent, hserial]
      exact hk.loads l hl

/-- An order of the venue whose card differs between two worlds is there in all later ones. -/
theorem venue_of_card {w w' : World} {venueId k : Id} {c : Card} (hkept : Kept w w')
    (hc : w.cardOf venueId k = some c) : ∃ o, w'.orders.get? k = some o ∧ o.venueId = venueId := by
  obtain ⟨hcard, hvenue⟩ := Option.filter_eq_some_iff.mp hc
  obtain ⟨o, ho, rfl⟩ := Option.map_eq_some_iff.mp hcard
  obtain ⟨o', ho'⟩ := hkept.ordersStay k o ho
  exact ⟨o', ho', (hkept.orders.same ho ho').venueId.trans (beq_iff_eq.mp hvenue)⟩

/-- **The cards stand still** once nothing of an order is heard any more. -/
theorem card_still {w₀ : World} (h₀ : Coherent w₀) {k : Kitchen hmac bcrypt} (hk : Sane w₀ k)
    {a : KitchenAction hmac bcrypt} {as : List (KitchenAction hmac bcrypt)}
    (hholds : ∀ b ∈ as, Holds b) (hquiet : (k.run token (a :: as)).pool.Quiet)
    (hnews : ∀ e ∈ (k.run token (a :: as)).pool.world.published.drop
      k.pool.world.published.length, ¬ (deskPasses token.venueId e = true ∧ e.orderOf.isSome))
    (id : Id) : (k.act token a).pool.world.cardOf token.venueId id
      = k.pool.world.cardOf token.venueId id := by
  by_contra hdiffers
  obtain ⟨pre, hpre⟩ := hk.house
  obtain ⟨post, hpost, hup⟩ := (k.act token a).run_house token as
  have hafter : Kept k.pool.world (k.act token a).pool.world := published_act token h₀ hk [a]
  have hend := published_act token h₀ hk (a :: as)
  have hend' := published_act token h₀ (sane_act token h₀ hk a) as
  -- the order is one of the venue, in the end too
  have hthere : ∃ o, (k.run token (a :: as)).pool.world.orders.get? id = some o
      ∧ o.venueId = token.venueId := by
    cases hc : k.pool.world.cardOf token.venueId id with
    | some c => exact venue_of_card hend hc
    | none =>
      cases hc' : (k.act token a).pool.world.cardOf token.venueId id with
      | some c => exact venue_of_card hend' hc'
      | none => exact absurd (hc'.trans hc.symm) hdiffers
  rcases k.act_house token a with hsame | ⟨x, hx, _⟩
  · rw [hsame] at hdiffers
    exact hdiffers rfl
  · -- the one thing that happened changed a card
    have hstep : (k.act token a).pool = houseRun hmac bcrypt w₀ (pre ++ [x]) := by
      rw [hx, hpre, houseRun, houseRun, Sys.Pool.run_append]
      rfl
    have hfinal : (k.run token (a :: as)).pool = houseRun hmac bcrypt w₀ (pre ++ x :: post) := by
      rw [run_cons, hpost, hstep, List.append_cons pre x post, houseRun, houseRun,
        Sys.Pool.run_append (Sys.Pool.init w₀) (pre ++ [x]) post]
    have hchange : (houseRun hmac bcrypt w₀ (pre ++ [x])).world.card id
        ≠ (houseRun hmac bcrypt w₀ pre).world.card id := by
      rw [← hstep, ← hpre]
      exact fun hsame => hdiffers (congrArg (Option.filter _) hsame)
    obtain ⟨mid, y, rest, e, rfl, horder, hpublished⟩ := change_announced hmac bcrypt h₀ hchange
      (hup hholds) (hfinal ▸ hquiet)
    obtain ⟨he, htrue⟩ := published_since hmac bcrypt h₀ hpublished
    rw [← hfinal] at he htrue
    rw [← hstep] at he
    refine hnews e ((List.drop_subset_drop_left _ hafter.published.length_le) he) ⟨?_, ?_⟩
    · obtain ⟨o, ho, hvenue⟩ := hthere
      cases e with
      | order_created v k' s t =>
        cases horder
        obtain ⟨o', ho', hv, _⟩ := htrue
        cases ho.symm.trans ho'
        exact beq_iff_eq.mpr (hv.symm.trans hvenue)
      | order_updated v k' s t =>
        cases horder
        obtain ⟨o', ho', hv, _⟩ := htrue
        cases ho.symm.trans ho'
        exact beq_iff_eq.mpr (hv.symm.trans hvenue)
      | _ => cases horder
    · exact horder ▸ rfl

/-- The response to a fetch, if it is one that shows the cards of `w`, an error, or the end of
the session. -/
def Brings (venueId : Id) (w : World) (x : Except DbError HouseAnswer) : Prop :=
  (∃ e, x = .error e) ∨ x = .ok (.deskOrders .unauthorized)
    ∨ ∃ orders, x = .ok (.deskOrders (.ok orders))
      ∧ orders.map DeskOrder.told = (w.deskOrders venueId false).map DeskOrder.told

/-- **The screen is right, as far as it knows**: it has given up, or says that it could not
load, or shows the cards of `w`. -/
def Shows (venueId : Id) (w : World) (s : Screen) : Prop :=
  s.gone = true ∨ s.loadError = true
    ∨ s.orders.map DeskOrder.told = (w.deskOrders venueId false).map DeskOrder.told

theorem Brings.shows {venueId : Id} {w : World} {x : Except DbError HouseAnswer}
    (h : Brings venueId w x) (s : Screen) : Shows venueId w (s.loaded x) := by
  rcases h with ⟨e, rfl⟩ | rfl | ⟨orders, rfl, heq⟩
  · exact .inr (.inl rfl)
  · exact .inl rfl
  · have hscreen : s.loaded (.ok (.deskOrders (.ok orders)))
        = { s with orders := orders, loadError := false } := rfl
    rw [hscreen]
    exact .inr (.inr heq)

/-- **From the last fetch on**: thread `i` serves it, and finds the cards of `w`; once it is
answered, the screen shows them. -/
structure Awaits (token : TokenClaims) (w : World) (n i : ℕ) (k : Kitchen hmac bcrypt) : Prop where
  loads : ∀ l ∈ k.screen.loads, l.serial = n → l.thread = some i
  serves : ∃ t, k.pool.threads[i]? = some t ∧ (house hmac bcrypt).Finds
    (fun w' => ∀ id, w'.cardOf token.venueId id = w.cardOf token.venueId id)
    (Brings token.venueId w) t.prog
  shows : k.screen.answered = some n → Shows token.venueId w k.screen

/-- A step of the screen, or of the server, while the last fetch is awaited. -/
theorem Awaits.act {w : World} {n i : ℕ} {k : Kitchen hmac bcrypt} (h : Awaits token w n i k)
    {a : KitchenAction hmac bcrypt} (hholds : Holds a) (hw : Waits token a k (k.act token a))
    (hstill : ∀ id, k.pool.world.cardOf token.venueId id = w.cardOf token.venueId id)
    (htaps : ¬ k.screen.moves.length < (k.act token a).screen.moves.length) :
    Awaits token w n i (k.act token a) := by
  obtain ⟨t, ht, hfinds⟩ := h.serves
  refine ⟨fun l' hl' hserial => ?_, ?_, fun hanswered => ?_⟩
  · obtain ⟨l, hl, heq, hsame⟩ := hw.loads l' hl'
    rw [hsame hholds]
    exact h.loads l hl (heq.symm.trans hserial)
  · rcases hw.house with hsame | ⟨x, hx, hne⟩
    · rw [hsame]
      exact ⟨t, ht, hfinds⟩
    · rw [hx]
      refine Sys.Pool.finds_act ht hfinds hstill (fun e he => ?_)
      cases e with
      | crash => exact absurd he (hne hholds)
      | _ => rfl
  · cases hw.picture with
    | same horders hgone herror hsame =>
      have hshows := h.shows (hsame ▸ hanswered)
      unfold Shows
      rw [horders, hgone, herror]
      exact hshows
    | tapped hmore _ => exact absurd hmore htaps
    | loaded hl hx hs hscreen =>
      rename_i l x s
      rw [hscreen, (loaded_sent _ _).2.2.2.2.2, hs] at hanswered
      rw [h.loads l hl (Option.some.inj hanswered)] at hx
      rw [hscreen]
      obtain ⟨t', ht', hout⟩ := Option.bind_eq_some_iff.mp
        (show (k.pool.threads[i]?).bind Sys.Thread.outcome = some x from hx)
      cases ht.symm.trans ht'
      exact (hfinds.outcome hout).shows s
    | failed _ _ herror => exact .inr (.inl herror)

/-- **The cards stand still to the end** once nothing of an order is heard any more. -/
theorem cards_still {w₀ w : World} (h₀ : Coherent w₀) {k : Kitchen hmac bcrypt} (hk : Sane w₀ k)
    {acts : List (KitchenAction hmac bcrypt)} (hholds : ∀ a ∈ acts, Holds a)
    (hquiet : (k.run token acts).pool.Quiet) (hend : (k.run token acts).pool.world = w)
    (hnews : ∀ e ∈ w.published.drop k.pool.world.published.length,
      ¬ (deskPasses token.venueId e = true ∧ e.orderOf.isSome)) (id : Id) :
    k.pool.world.cardOf token.venueId id = w.cardOf token.venueId id := by
  induction acts generalizing k with
  | nil => exact congrArg (fun w => w.cardOf token.venueId id) hend
  | cons a as ih =>
    have hlater : ∀ b ∈ as, Holds b := fun b hb => hholds b (List.mem_cons_of_mem _ hb)
    have hgrows := (published_act token h₀ hk [a]).published.length_le
    rw [← card_still h₀ hk hlater hquiet (hend ▸ hnews) id]
    exact ih (sane_act token h₀ hk a) hlater hquiet hend
      (fun e he => hnews e (List.drop_subset_drop_left _ hgrows he))

/-- **While the last fetch is awaited**, until everything is quiet. -/
theorem Awaits.run {w₀ w : World} (h₀ : Coherent w₀) {n i : ℕ} {k : Kitchen hmac bcrypt}
    (hk : Sane w₀ k) (h : Awaits token w n i k) {acts : List (KitchenAction hmac bcrypt)}
    (hholds : ∀ a ∈ acts, Holds a) (hlast : (k.run token acts).screen.sent = k.screen.sent)
    (hquiet : (k.run token acts).pool.Quiet) (hmoves : (k.run token acts).screen.moves = [])
    (hend : (k.run token acts).pool.world = w)
    (hnews : ∀ e ∈ w.published.drop k.pool.world.published.length,
      ¬ (deskPasses token.venueId e = true ∧ e.orderOf.isSome)) :
    Awaits token w n i (k.run token acts) := by
  induction acts generalizing k with
  | nil => exact h
  | cons a as ih =>
    have hw := waits_of_last hlast
    have hlast' : ((k.act token a).run token as).screen.sent = (k.act token a).screen.sent :=
      hlast.trans hw.sent.symm
    have hgrows := (published_act token h₀ hk [a]).published.length_le
    -- taps are forgotten only for a fetch, and in the end there are none
    have htaps : ¬ k.screen.moves.length < (k.act token a).screen.moves.length := by
      have hle := ((k.act token a).run_counts token as).2 hlast'
      rw [run_cons] at hmoves
      rw [hmoves] at hle
      exact fun hlt => absurd (Nat.lt_of_lt_of_le hlt hle) (Nat.not_lt_zero _)
    have hstep := h.act (hholds a List.mem_cons_self) hw
      (cards_still h₀ hk hholds hquiet hend hnews) htaps
    exact ih (sane_act token h₀ hk a) hstep (fun b hb => hholds b (List.mem_cons_of_mem _ hb)) hlast'
      hquiet hmoves hend (fun e he => hnews e (List.drop_subset_drop_left _ hgrows he))

/-- The kitchen before anything has happened. -/
def opened (w₀ : World) : Kitchen hmac bcrypt := ⟨Sys.Pool.init w₀, .blank⟩

/-- So many calls of a thread. -/
def served (i n : ℕ) : List (KitchenAction joined openHash) :=
  List.replicate n (.house (.step i plain))

end

end Kitchen

end Masadan
