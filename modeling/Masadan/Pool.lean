import Masadan.Prog

/-!
# Programs taking turns

A server is many programs over one shared world, one for each request it is
serving, and the only thing that is atomic is a single call. `Pool` is that: the
world, and the programs in flight or finished. An `Action` lets one thing
happen – a request arrives, a waiting program's call is answered, the world
moves on by itself – and a run is a list of actions. Every interleaving of
every number of requests is one such list, so a statement about all runs is a
statement about all lists.

A call may start further programs in the background (`Sys.spawns`); they join the
pool and take turns like the rest. An event of the environment may end every
program in flight, which is what a crash of the process does (`Sys.kills`).

Nothing of the past is forgotten: a program carries its *view*, the world it
was born in and the calls it has made, each with the world before and the
world after. The view takes no part in what happens. It is what statements
about a run speak of – what a program last saw, whether it made the call that
closed something – and `View.since`, the world as the program last left it,
is where every argument about staleness starts.
-/

universe u

/-- **A system**: a world that answers the calls of `S`, the requests that may
arrive, and the program each request runs. -/
structure Sys (S : Sig.{u}) where
  /-- The shared world. -/
  World : Type
  /-- The requests, background jobs included. -/
  Req : Type
  /-- What a request is answered with. -/
  Ans : Type
  /-- What the scheduler may choose when a call is answered. -/
  Choice : Type
  /-- What can happen without a request. -/
  Env : Type
  /-- How a call is answered. -/
  exec : Choice → (op : S.Op) → World → World × Except S.Err (S.Res op)
  /-- The program of a request. -/
  prog : Req → Prog S Ans
  /-- Whether the request may arrive from outside. -/
  external : Req → Bool
  /-- The programs a call starts in the background. -/
  spawns : S.Op → List Req
  /-- What an event of the environment does to the world. -/
  env : Env → World → World
  /-- Whether an event of the environment ends every program in flight. -/
  kills : Env → Bool

/-- One call that was made, with the world before and after. -/
structure Event (S : Sig.{u}) (W : Type) where
  /-- The call. -/
  op : S.Op
  /-- The world the call was answered in. -/
  before : W
  /-- The world it left. -/
  after : W

/-- What a program has seen: the world it was born in, and the calls it has
made, latest first. -/
structure View (S : Sig.{u}) (W : Type) where
  /-- The world the program was started in. -/
  born : W
  /-- The calls it has made, latest first. -/
  past : List (Event S W)

namespace View

variable {S : Sig.{u}} {W : Type}

/-- The world as the program last left it. -/
def since (v : View S W) : W :=
  match v.past with
  | [] => v.born
  | e :: _ => e.after

/-- The view after one more call. -/
def push (v : View S W) (e : Event S W) : View S W := ⟨v.born, e :: v.past⟩

@[simp] theorem since_push (v : View S W) (e : Event S W) : (v.push e).since = e.after := rfl

@[simp] theorem past_push (v : View S W) (e : Event S W) : (v.push e).past = e :: v.past := rfl

@[simp] theorem born_push (v : View S W) (e : Event S W) : (v.push e).born = v.born := rfl

@[simp] theorem since_nil (w : W) : (View.mk w [] : View S W).since = w := rfl

end View

variable {S : Sig.{u}}

namespace Sys

variable (Y : Sys S)

/-- **A program in the pool**: the request it serves, what it has seen, and what
is left of it. -/
structure Thread where
  /-- The request. -/
  req : Y.Req
  /-- What the program has seen. -/
  view : View S Y.World
  /-- What is left to run. -/
  prog : Prog S Y.Ans

/-- **The server**: the world and every program started on it. -/
structure Pool where
  /-- The shared world. -/
  world : Y.World
  /-- The programs, in the order they were started. -/
  threads : List Y.Thread

/-- What can happen next. -/
inductive Action where
  /-- A request arrives. -/
  | arrive (r : Y.Req)
  /-- The call the `i`-th program waits on is answered. -/
  | step (i : ℕ) (c : Y.Choice)
  /-- The environment moves. -/
  | env (e : Y.Env)

variable {Y}

/-- A program at its start. -/
def start (r : Y.Req) (w : Y.World) : Y.Thread := ⟨r, ⟨w, []⟩, Y.prog r⟩

/-- What a finished program returned or threw. -/
def Thread.outcome (t : Y.Thread) : Option (Except S.Err Y.Ans) := t.prog.outcome

namespace Pool

/-- The pool with nothing started. -/
def init (w : Y.World) : Y.Pool := ⟨w, []⟩

/-- Answer the call the `i`-th program waits on; if there is no such program,
or it is not waiting, nothing happens. -/
def step (p : Y.Pool) (i : ℕ) (c : Y.Choice) : Y.Pool :=
  match p.threads[i]? with
  | none => p
  | some t =>
    match t.prog with
    | .call op k =>
      let r := Y.exec c op p.world
      ⟨r.1,
        p.threads.set i ⟨t.req, t.view.push ⟨op, p.world, r.1⟩, k r.2⟩
          ++ (Y.spawns op).map (fun j => start j r.1)⟩
    | _ => p

/-- Let one thing happen. A request that may not arrive from outside is
ignored. -/
def act (p : Y.Pool) : Y.Action → Y.Pool
  | .arrive r =>
    if Y.external r then ⟨p.world, p.threads ++ [start r p.world]⟩ else p
  | .step i c => p.step i c
  | .env e => ⟨Y.env e p.world, if Y.kills e then [] else p.threads⟩

/-- **A run**: actions one after another. -/
def run (p : Y.Pool) (acts : List Y.Action) : Y.Pool := acts.foldl act p

@[simp] theorem run_nil (p : Y.Pool) : p.run [] = p := rfl

@[simp] theorem run_cons (p : Y.Pool) (a : Y.Action) (as : List Y.Action) :
    p.run (a :: as) = (p.act a).run as := rfl

theorem run_append (p : Y.Pool) (as bs : List Y.Action) :
    p.run (as ++ bs) = (p.run as).run bs := List.foldl_append

/-- The outcome of the `i`-th program, if there is one and it has finished. -/
def outcome (p : Y.Pool) (i : ℕ) : Option (Except S.Err Y.Ans) :=
  (p.threads[i]?).bind Thread.outcome

/-- A request was answered. -/
def Answered (p : Y.Pool) (r : Y.Req) (a : Y.Ans) : Prop :=
  ∃ t ∈ p.threads, t.req = r ∧ t.outcome = some (.ok a)

/-- **Nothing is in flight**: every program has returned or thrown. -/
def Quiet (p : Y.Pool) : Prop := ∀ t ∈ p.threads, t.outcome ≠ none

theorem quiet_of_all {p : Y.Pool} (h : p.threads.all (fun t => t.outcome.isSome) = true) :
    p.Quiet := by
  intro t ht hnone
  have hsome := List.all_eq_true.mp h t ht
  rw [hnone] at hsome
  cases hsome

/-! ## Runs whose steps meet a condition -/

/-- **Every action of the run meets the condition** in the pool it is taken
in. -/
def Meets (cond : Y.Pool → Y.Action → Bool) (p : Y.Pool) : List Y.Action → Bool
  | [] => true
  | a :: as => cond p a && (p.act a).Meets cond as

@[simp] theorem meets_nil (cond : Y.Pool → Y.Action → Bool) (p : Y.Pool) :
    p.Meets cond [] = true := rfl

theorem meets_cons {cond : Y.Pool → Y.Action → Bool} {p : Y.Pool} {a : Y.Action}
    {as : List Y.Action} : p.Meets cond (a :: as) = true
      ↔ cond p a = true ∧ (p.act a).Meets cond as = true := by
  rw [Meets, Bool.and_eq_true]

/-- A run meets a condition when both its parts do. -/
theorem meets_append {cond : Y.Pool → Y.Action → Bool} {p : Y.Pool}
    {as bs : List Y.Action} : p.Meets cond (as ++ bs) = true
      ↔ p.Meets cond as = true ∧ (p.run as).Meets cond bs = true := by
  induction as generalizing p with
  | nil => simp
  | cons a as ih =>
    rw [List.cons_append, meets_cons, meets_cons, ih, run_cons]
    exact and_assoc.symm

/-- The condition that asks nothing. -/
theorem meets_true (p : Y.Pool) (as : List Y.Action) :
    p.Meets (fun _ _ => true) as = true := by
  induction as generalizing p with
  | nil => rfl
  | cons a as ih => exact meets_cons.mpr ⟨rfl, ih _⟩

/-- **A run meets what follows, on the way, from what it meets.** -/
theorem meets_of_prefix {cond cond' : Y.Pool → Y.Action → Bool} {p : Y.Pool} {as : List Y.Action}
    (hm : p.Meets cond as = true)
    (h : ∀ pre a post, as = pre ++ a :: post → cond (p.run pre) a = true →
      cond' (p.run pre) a = true) : p.Meets cond' as = true := by
  induction as generalizing p with
  | nil => rfl
  | cons a as ih =>
    obtain ⟨ha, has⟩ := meets_cons.mp hm
    refine meets_cons.mpr ⟨h [] a as rfl ha, ih has (fun pre b post hsplit hb => ?_)⟩
    exact h (a :: pre) b post (congrArg (a :: ·) hsplit) hb

/-- **What one action preserves, a run preserves.** -/
theorem run_induction {cond : Y.Pool → Y.Action → Bool} (I : Y.Pool → Prop)
    (hstep : ∀ p a, I p → cond p a = true → I (p.act a)) {p : Y.Pool} (hp : I p)
    {as : List Y.Action} (hm : p.Meets cond as = true) : I (p.run as) := by
  induction as generalizing p with
  | nil => exact hp
  | cons a as ih =>
    obtain ⟨ha, has⟩ := meets_cons.mp hm
    exact ih (hstep p a hp ha) has

/-! ## One step at a time -/

/-- What a step does, when there is something to do. -/
theorem step_of_call {p : Y.Pool} {i : ℕ} {c : Y.Choice} {t : Y.Thread}
    (ht : p.threads[i]? = some t) {op : S.Op}
    {k : Except S.Err (S.Res op) → Prog S Y.Ans} (hk : t.prog = .call op k) :
    p.step i c = ⟨(Y.exec c op p.world).1,
      p.threads.set i ⟨t.req, t.view.push ⟨op, p.world, (Y.exec c op p.world).1⟩,
        k (Y.exec c op p.world).2⟩
        ++ (Y.spawns op).map (fun j => start j (Y.exec c op p.world).1)⟩ := by
  unfold step
  rw [ht]
  dsimp only
  rw [hk]

/-- A program that moves goes on serving its request. -/
theorem reqs_set {ts : List Y.Thread} {i : ℕ} {t t' : Y.Thread} (ht : ts[i]? = some t)
    (hreq : t'.req = t.req) : (ts.set i t').map (fun u => u.req) = ts.map (fun u => u.req) := by
  ext j : 1
  rw [List.getElem?_map, List.getElem?_map, List.getElem?_set]
  by_cases hij : i = j
  · subst hij
    rw [if_pos rfl, if_pos (List.getElem?_eq_some_iff.mp ht).1, ht]
    exact congrArg some hreq
  · rw [if_neg hij]

/-- **A step answers one waiting call, or does nothing.** -/
theorem step_cases (p : Y.Pool) (i : ℕ) (c : Y.Choice) :
    p.step i c = p ∨ ∃ t op k, p.threads[i]? = some t ∧ t.prog = .call op k ∧
      p.step i c = ⟨(Y.exec c op p.world).1,
        p.threads.set i ⟨t.req, t.view.push ⟨op, p.world, (Y.exec c op p.world).1⟩,
          k (Y.exec c op p.world).2⟩
          ++ (Y.spawns op).map (fun j => start j (Y.exec c op p.world).1)⟩ := by
  cases ht : p.threads[i]? with
  | none =>
    left
    unfold step
    rw [ht]
  | some t =>
    cases hp : t.prog with
    | ret a =>
      left
      unfold step
      rw [ht]
      dsimp only
      rw [hp]
    | raise e =>
      left
      unfold step
      rw [ht]
      dsimp only
      rw [hp]
    | call op k => exact .inr ⟨t, op, k, rfl, hp, step_of_call ht hp⟩

end Pool

end Sys
