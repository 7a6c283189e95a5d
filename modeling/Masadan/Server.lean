import Masadan.Outbox
import Masadan.Rely

/-!
# The server

A handler answers one request; the server answers many at once. `server` is the
system of `Masadan.Pool` whose programs are handlers over the one `World`: which
handlers, which background jobs, is the parameter, so that a law can say which
requests it is about.

Time passes as it likes between calls. On a *rough* server any database call may
fail, leaving no effect, and the process may crash, which ends every handler and job
in flight and leaves the database as it is.
-/

namespace Masadan

/-- What happens without a request. -/
inductive Disturbance where
  /-- Time passes. -/
  | tick (ms : ℕ)
  /-- The process dies and is started again. -/
  | crash
  deriving DecidableEq

/-- Whether a call goes to the database: the bus, the background jobs, the account
cache and the limiter are the process's own. -/
def Call.onDatabase : Call → Bool
  | .publish _ | .background _ | .accountCacheSet _ _ | .accountCacheDelete _ | .limiter _ => false
  | _ => true

def Call.isQuery : Call → Bool
  | .query _ => true
  | _ => false

/-- **The server over some handlers.** -/
abbrev server {R A : Type} (prog : R → Api A) (external : R → Bool) (background : Job → List R)
    (rough : Bool) : Sys api where
  World := World
  Req := R
  Ans := A
  Choice := Choice
  Env := Disturbance
  exec c op w :=
    if rough && c.fault && op.onDatabase then (w, .error .failed) else World.exec c op w
  prog := prog
  external := external
  spawns
    | .background job => background job
    | _ => []
  env
    | .tick ms, w => { w with now := w.now + ms }
    | .crash, w => w
  kills
    | .tick _ => false
    | .crash => rough

/-- Only a job starts programs. -/
theorem spawns_cases {R A : Type} {prog : R → Api A} {external : R → Bool}
    {background : Job → List R} {rough : Bool} {op : Call} {r : R}
    (h : r ∈ (server prog external background rough).spawns op) :
    ∃ job, op = .background job ∧ r ∈ background job := by
  cases op with
  | background job => exact ⟨job, rfl, h⟩
  | _ => exact absurd h List.not_mem_nil

/-- The choice that makes nothing special happen. -/
def plain : Choice := ⟨false, false⟩

/-! ## Calls that change no order, line, visit or delivery -/

/-- **The rows a handler that only reads, stamps a session, logs, publishes or
starts a job leaves alone**; and of the sessions only the stamp is changed. -/
structure SameRows (w w' : World) : Prop where
  now : w'.now = w.now
  venues : w'.venues = w.venues
  tables : w'.tables = w.tables
  menuItems : w'.menuItems = w.menuItems
  tableVisits : w'.tableVisits = w.tableVisits
  tableSessions : ∀ id s', w'.tableSessions.get? id = some s' →
    ∃ s, w.tableSessions.get? id = some s ∧ s' = { s with lastSeenAt := s'.lastSeenAt }
  sessionsThere : ∀ id s, w.tableSessions.get? id = some s →
    ∃ s', w'.tableSessions.get? id = some s'
  orders : w'.orders = w.orders
  orderItems : w'.orderItems = w.orderItems
  orderEdits : w'.orderEdits = w.orderEdits
  posDeliveries : w'.posDeliveries = w.posDeliveries

/-- A world that differs in the ledger and in what was published only. -/
theorem SameRows.of_eq {w w' : World} (hnow : w'.now = w.now) (hv : w'.venues = w.venues)
    (ht : w'.tables = w.tables) (hm : w'.menuItems = w.menuItems)
    (htv : w'.tableVisits = w.tableVisits) (hs : w'.tableSessions = w.tableSessions)
    (ho : w'.orders = w.orders) (hi : w'.orderItems = w.orderItems)
    (he : w'.orderEdits = w.orderEdits) (hp : w'.posDeliveries = w.posDeliveries) :
    SameRows w w' :=
  ⟨hnow, hv, ht, hm, htv, fun _ s' h => ⟨s', hs ▸ h, rfl⟩, fun _ s h => ⟨s, hs ▸ h⟩, ho, hi, he,
    hp⟩

theorem SameRows.refl (w : World) : SameRows w w :=
  SameRows.of_eq rfl rfl rfl rfl rfl rfl rfl rfl rfl rfl

/-- **A harmless call**: a read, a stamp on a session, a row of the ledger, an
event, a job, a hit of the limiter. -/
def Call.Harmless : Call → Prop
  | .query _ | .orderAttemptCreate _ | .publish _ | .background _ | .limiter _ => True
  | .tableSessionUpdate _ data =>
    ∀ now s, data now s = { s with lastSeenAt := (data now s).lastSeenAt }
  | _ => False

theorem exec_harmless {c : Choice} {op : Call} (h : op.Harmless) (w : World) :
    SameRows w (World.exec c op w).1 := by
  cases op with
  | query q => exact SameRows.refl w
  | tableSessionUpdate id data =>
    show SameRows w (w.tableSessionUpdate id data).1
    unfold World.tableSessionUpdate
    split
    · exact SameRows.refl w
    · refine ⟨rfl, rfl, rfl, rfl, rfl, fun k s' hs' => ?_, fun k s hs => ?_, rfl, rfl, rfl, rfl⟩
      · rw [Rows.get?_updateAt] at hs'
        obtain ⟨s, hs, rfl⟩ := Option.map_eq_some_iff.mp hs'
        refine ⟨s, hs, ?_⟩
        split
        · exact h w.now s
        · rfl
      · exact ⟨_, (Rows.get?_updateAt _ _ _ _).trans (congrArg _ hs)⟩
  | orderAttemptCreate row => exact SameRows.of_eq rfl rfl rfl rfl rfl rfl rfl rfl rfl rfl
  | publish event => exact SameRows.of_eq rfl rfl rfl rfl rfl rfl rfl rfl rfl rfl
  | limiter f => exact SameRows.of_eq rfl rfl rfl rfl rfl rfl rfl rfl rfl rfl
  | background job => exact SameRows.refl w
  | _ => exact h.elim

/-! ## Handlers among others

On a server whose calls do not fail, and under a protocol that has nothing
against a harmless call, a handler's reads and its reports are passed over by
the rules below, and what is left of a proof is its writes. -/

section

variable {R A : Type} {prog : R → Api A} {external : R → Bool} {background : Job → List R}
  {P : Protocol (server prog external background false)}

/-- The protocol has nothing against a harmless call. -/
def AllowsHarmless (P : Protocol (server prog external background false)) : Prop :=
  ∀ r v w w' op, op.Harmless → SameRows w w' → P.Inv w → P.Takes r v ⟨op, w, w'⟩

variable {α β : Type} {r : R} {v : View api World}
  {Q : View api World → Except DbError β → Prop}

/-- It has nothing against one that is answered. -/
theorem AllowsHarmless.exec (hP : AllowsHarmless P) {op : Call} (hop : op.Harmless) (c : Choice)
    {w : World} (hw : P.Inv w) : P.Takes r v ⟨op, w, (World.exec c op w).1⟩ :=
  hP r v w _ op hop (exec_harmless hop w) hw

/-- A read, then the rest. -/
theorem ok_query (hP : AllowsHarmless P) (q : World → α) {f : α → Api β}
    (h : ∀ w, P.Inv w → P.Rely v.since w → P.Ok r Q (v.push ⟨.query q, w, w⟩) (f (q w))) :
    P.Ok r Q v ((query q).bind f) :=
  Protocol.ok_perform_bind (fun w _ hw hv _ =>
    ⟨hP r v w w (.query q) trivial (SameRows.refl w) hw, h w hw hv⟩)

/-- A write, then the rest: what it left and what it answered are what `exec`
says. -/
theorem ok_write {op : Call} {f : Call.Res op → Api β}
    (h : ∀ w c w' x, P.Inv w → P.Rely v.since w → P.Guard r v c op w = true →
      World.exec c op w = (w', x) → P.Takes r v ⟨op, w, w'⟩ ∧
        P.Ok r Q (v.push ⟨op, w, w'⟩) ((Prog.ofExcept (S := api) x).bind f)) :
    P.Ok r Q v ((perform op).bind f) :=
  fun w c hw hv hg => h w c _ _ hw hv hg rfl

/-- A write, and its answer. -/
theorem ok_last {op : Call} {Q : View api World → Except DbError (Call.Res op) → Prop}
    (h : ∀ w c w' x, P.Inv w → P.Rely v.since w → P.Guard r v c op w = true →
      World.exec c op w = (w', x) → P.Takes r v ⟨op, w, w'⟩ ∧ Q (v.push ⟨op, w, w'⟩) x) :
    P.Ok r Q v (perform op) :=
  fun w c hw hv hg => (h w c _ _ hw hv hg rfl).imp_right Protocol.ok_ofExcept

/-- A harmless part, then the rest, from wherever the others have led to. -/
theorem ok_harmless_bind (hP : AllowsHarmless P) {B : α → Prop} {p : Api α} {f : α → Api β}
    (hp : p.Calls Call.Harmless B)
    (hf : ∀ v' a, B a → v.past <:+ v'.past → P.Rely v.since v'.since → P.Ok r Q v' (f a))
    (he : ∀ v' e, v.past <:+ v'.past → P.Rely v.since v'.since → Q v' (.error e)) :
    P.Ok r Q v (p.bind f) :=
  Protocol.ok_calls_bind hp (fun _ _ c _ hop hw _ => hP.exec hop c hw) hf he

end

/-! ## Handlers on any server

On a rough server a call may also fail: it leaves the world as it was, and the
handler is told. -/

section

variable {R A : Type} {prog : R → Api A} {external : R → Bool} {background : Job → List R}
  {rough : Bool} {P : Protocol (server prog external background rough)}

/-- **What answering a call comes to**: what `exec` says, or, on a rough server, a
failure. -/
def Yields (rough : Bool) (c : Choice) (op : Call) (w w' : World)
    (x : Except DbError (Call.Res op)) : Prop :=
  World.exec c op w = (w', x) ∨ (rough = true ∧ w' = w ∧ x = .error .failed)

theorem yields_exec (c : Choice) (op : Call) (w : World) :
    Yields rough c op w ((server prog external background rough).exec c op w).1
      ((server prog external background rough).exec c op w).2 := by
  by_cases hf : (rough && c.fault && op.onDatabase) = true
  · have hx : (server prog external background rough).exec c op w = (w, .error .failed) := if_pos hf
    rw [hx]
    exact .inr ⟨(Bool.and_eq_true_iff.mp (Bool.and_eq_true_iff.mp hf).1).1, rfl, rfl⟩
  · have hx : (server prog external background rough).exec c op w = World.exec c op w := if_neg hf
    rw [hx]
    exact .inl rfl

variable {α β : Type} {r : R} {v : View api World}
  {Q : View api World → Except DbError β → Prop}

/-- A call, and what is done with its outcome. -/
theorem ok_any_call {op : Call} {k : Except DbError (Call.Res op) → Api β}
    (h : ∀ w c w' x, P.Inv w → P.Rely v.since w → P.Guard r v c op w = true →
      Yields rough c op w w' x → P.Takes r v ⟨op, w, w'⟩ ∧ P.Ok r Q (v.push ⟨op, w, w'⟩) (k x)) :
    P.Ok r Q v (.call op k) :=
  fun w c hw hv hg => h w c _ _ hw hv hg (yields_exec c op w)

/-- A call, then the rest. -/
theorem ok_any {op : Call} {f : Call.Res op → Api β}
    (h : ∀ w c w' x, P.Inv w → P.Rely v.since w → P.Guard r v c op w = true →
      Yields rough c op w w' x → P.Takes r v ⟨op, w, w'⟩ ∧
        P.Ok r Q (v.push ⟨op, w, w'⟩) ((Prog.ofExcept (S := api) x).bind f)) :
    P.Ok r Q v ((perform op).bind f) :=
  ok_any_call h

/-- A call, and its answer. -/
theorem ok_any_last {op : Call} {Q : View api World → Except DbError (Call.Res op) → Prop}
    (h : ∀ w c w' x, P.Inv w → P.Rely v.since w → P.Guard r v c op w = true →
      Yields rough c op w w' x → P.Takes r v ⟨op, w, w'⟩ ∧ Q (v.push ⟨op, w, w'⟩) x) :
    P.Ok r Q v (perform op) :=
  ok_any_call (fun w c w' x hw hv hg hx =>
    (h w c w' x hw hv hg hx).imp_right Protocol.ok_ofExcept)

/-- A read, then the rest. -/
theorem ok_any_query (hP : ∀ r v w (q : World → α), P.Inv w → P.Takes r v ⟨.query q, w, w⟩)
    (q : World → α) {f : α → Api β}
    (h : ∀ w, P.Inv w → P.Rely v.since w → P.Ok r Q (v.push ⟨.query q, w, w⟩) (f (q w)))
    (he : ∀ w, Q (v.push ⟨.query q, w, w⟩) (.error .failed)) :
    P.Ok r Q v ((query q).bind f) := by
  refine ok_any (fun w c w' x hw hv _ hx => ?_)
  rcases hx with hx | ⟨_, rfl, rfl⟩
  · cases hx
    exact ⟨hP r v w q hw, h w hw hv⟩
  · exact ⟨hP r v w' q hw, he w'⟩

end

/-! ## Handlers alone -/

/-- The world a program leaves when nobody else is about. -/
def World.after {α : Type} (w : World) (p : Api α) : World := (p.runAlone (World.exec plain) w).1

section

variable {α β : Type} {Q : World → Except DbError β → Prop} {w : World}

/-- What a handler does with nobody else about. -/
abbrev Alone (Q : World → Except DbError α → Prop) (p : Api α) (w : World) : Prop :=
  Prog.Alone (World.exec plain) Q p w

theorem alone_query {q : World → α} {f : α → Api β} (h : Alone Q (f (q w)) w) :
    Alone Q ((query q).bind f) w := h

theorem alone_write {op : Call} {f : Call.Res op → Api β}
    (h : ∀ w' x, World.exec plain op w = (w', x) →
      Alone Q ((Prog.ofExcept (S := api) x).bind f) w') : Alone Q ((perform op).bind f) w :=
  h _ _ rfl

end

end Masadan
