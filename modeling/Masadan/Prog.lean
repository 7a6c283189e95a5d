import Mathlib.Data.List.Basic

/-!
# Programs that make calls

A server handler is a program that computes, makes a call on something shared
– a database, a clock, a bus –, waits for the reply, and goes on. Between two
calls nothing it does can be seen by anybody else, and while it waits anything
may happen. `Prog S α` is such a program: it has returned, it has thrown, or
it makes one call and continues with the reply, which may itself be an error.

The calls are a *signature* `S`: what can be asked, what each question is
answered with, and what can be thrown. A program knows nothing of how a call
is answered; `Prog.runAlone` answers every call from one shared state that
nobody else touches, and `Masadan.Pool` lets many programs take turns on it.

Programs are finite trees, so every program returns or throws once its calls
are answered. Recursion on the tree is what every rule about programs is
proved by.
-/

universe u

/-- **A signature**: the calls a program can make, the type each is answered
with, and the errors it can meet. -/
structure Sig where
  /-- The calls. -/
  Op : Type u
  /-- What a call is answered with when it succeeds. -/
  Res : Op → Type
  /-- What a call, or the program itself, can throw. -/
  Err : Type

/-- **A program**: returned, thrown, or waiting for the reply to a call. -/
inductive Prog (S : Sig.{u}) (α : Type) : Type u where
  /-- The program has returned. -/
  | ret (a : α) : Prog S α
  /-- The program has thrown. -/
  | raise (e : S.Err) : Prog S α
  /-- The program makes a call and goes on with its outcome. -/
  | call (op : S.Op) (k : Except S.Err (S.Res op) → Prog S α) : Prog S α

namespace Prog

variable {S : Sig.{u}} {α β : Type}

/-- Run `p`, then `f` on what it returned; what `p` throws is thrown. -/
def bind : Prog S α → (α → Prog S β) → Prog S β
  | ret a, f => f a
  | raise e, _ => raise e
  | call op k, f => call op (fun r => (k r).bind f)

instance : Monad (Prog S) where
  pure := ret
  bind := bind

/-- Hand an outcome to the program: return the value, or throw the error. -/
def ofExcept : Except S.Err α → Prog S α
  | .ok a => ret a
  | .error e => raise e

/-- Make one call; its error, if any, is thrown. -/
def perform (op : S.Op) : Prog S (S.Res op) := call op ofExcept

/-- **`try`**: run a program and hold what it returned or threw. -/
def attempt : Prog S α → Prog S (Except S.Err α)
  | ret a => ret (.ok a)
  | raise e => ret (.error e)
  | call op k => call op (fun r => (k r).attempt)

/-- The call a program is waiting on, if it is waiting. -/
def next : Prog S α → Option S.Op
  | ret _ => none
  | raise _ => none
  | call op _ => some op

/-- What a finished program returned or threw. -/
def outcome : Prog S α → Option (Except S.Err α)
  | ret a => some (.ok a)
  | raise e => some (.error e)
  | call _ _ => none

@[simp] theorem pure_eq (a : α) : (pure a : Prog S α) = ret a := rfl

@[simp] theorem bind_eq (p : Prog S α) (f : α → Prog S β) : p >>= f = p.bind f := rfl

@[simp] theorem map_eq (p : Prog S α) (f : α → β) :
    f <$> p = p.bind (fun a => ret (f a)) := rfl

@[simp] theorem ret_bind (a : α) (f : α → Prog S β) : (ret a).bind f = f a := rfl

@[simp] theorem raise_bind (e : S.Err) (f : α → Prog S β) :
    (raise e).bind f = raise e := rfl

@[simp] theorem call_bind (op : S.Op) (k : Except S.Err (S.Res op) → Prog S α)
    (f : α → Prog S β) : (call op k).bind f = call op (fun r => (k r).bind f) := rfl

/-- Sequences of three are of one kind. -/
theorem bind_assoc {γ : Type} (p : Prog S α) (f : α → Prog S β) (g : β → Prog S γ) :
    (p.bind f).bind g = p.bind (fun a => (f a).bind g) := by
  induction p with
  | ret a => rfl
  | raise e => rfl
  | call op k ih =>
    rw [call_bind, call_bind, call_bind]
    exact congrArg (call op) (funext ih)

@[simp] theorem outcome_ret (a : α) : (ret a : Prog S α).outcome = some (.ok a) := rfl

@[simp] theorem outcome_raise (e : S.Err) :
    (raise e : Prog S α).outcome = some (.error e) := rfl

@[simp] theorem outcome_call (op : S.Op) (k : Except S.Err (S.Res op) → Prog S α) :
    (call op k).outcome = none := rfl

/-! ## Running alone -/

variable {W : Type}

/-- **Running a program with nobody else about**: every call is answered from
the state the previous one left. -/
def runAlone (exec : (op : S.Op) → W → W × Except S.Err (S.Res op)) :
    Prog S α → W → W × Except S.Err α
  | ret a, w => (w, .ok a)
  | raise e, w => (w, .error e)
  | call op k, w => (k (exec op w).2).runAlone exec (exec op w).1

section

variable (exec : (op : S.Op) → W → W × Except S.Err (S.Res op))

@[simp] theorem runAlone_ret (a : α) (w : W) :
    (ret a : Prog S α).runAlone exec w = (w, .ok a) := rfl

@[simp] theorem runAlone_raise (e : S.Err) (w : W) :
    (raise e : Prog S α).runAlone exec w = (w, .error e) := rfl

@[simp] theorem runAlone_call (op : S.Op) (k : Except S.Err (S.Res op) → Prog S α)
    (w : W) : (call op k).runAlone exec w
      = (k (exec op w).2).runAlone exec (exec op w).1 := rfl

end

/-- **What a program does when it runs alone** satisfies `Q`: of the state it
leaves, and of what it returned or threw. -/
def Alone (exec : (op : S.Op) → W → W × Except S.Err (S.Res op))
    (Q : W → Except S.Err α → Prop) (p : Prog S α) (w : W) : Prop :=
  Q (p.runAlone exec w).1 (p.runAlone exec w).2

section

variable {exec : (op : S.Op) → W → W × Except S.Err (S.Res op)}

theorem alone_mono {Q Q' : W → Except S.Err α → Prop} {p : Prog S α} {w : W}
    (h : p.Alone exec Q w) (hQ : ∀ w x, Q w x → Q' w x) : p.Alone exec Q' w := hQ _ _ h

/-- A sequence does what its first part does, and then what its second part does
from there. -/
theorem alone_bind {Q : W → Except S.Err β → Prop} {p : Prog S α} {f : α → Prog S β} {w : W}
    (h : p.Alone exec (fun w' x => match x with
      | .ok a => (f a).Alone exec Q w'
      | .error e => Q w' (.error e)) w) : (p.bind f).Alone exec Q w := by
  induction p generalizing w with
  | ret a => exact h
  | raise e => exact h
  | call op k ih => exact ih _ h

theorem alone_map {Q : W → Except S.Err β → Prop} {p : Prog S α} {f : α → β} {w : W}
    (h : p.Alone exec (fun w' x => Q w' (x.map f)) w) : (f <$> p).Alone exec Q w := by
  refine alone_bind (alone_mono h (fun w' x hx => ?_))
  cases x with
  | ok a => exact hx
  | error e => exact hx

end

/-! ## What a program can ask

Some facts about a program hold whatever its calls are answered with, since
they only say which calls it makes and with which arguments: that everything
it inserts was priced by it, that it never touches a given table. `Calls A B`
is that kind of fact – every call the tree can reach satisfies `A`, every
value it can return satisfies `B` – and is proved without looking at any
state. -/

/-- **Every call the program can make satisfies `A`, and every value it can
return satisfies `B`**, whatever the replies. -/
def Calls (A : S.Op → Prop) (B : α → Prop) : Prog S α → Prop
  | ret a => B a
  | raise _ => True
  | call op k => A op ∧ ∀ r, (k r).Calls A B

section

variable {A A' : S.Op → Prop} {B B' : α → Prop}

@[simp] theorem calls_ret {a : α} : (ret a : Prog S α).Calls A B ↔ B a := Iff.rfl

@[simp] theorem calls_raise {e : S.Err} : (raise e : Prog S α).Calls A B ↔ True := Iff.rfl

@[simp] theorem calls_call {op : S.Op} {k : Except S.Err (S.Res op) → Prog S α} :
    (call op k).Calls A B ↔ A op ∧ ∀ r, (k r).Calls A B := Iff.rfl

theorem calls_perform {op : S.Op} (h : A op) : (perform op).Calls A (fun _ => True) :=
  ⟨h, fun r => match r with | .ok _ => trivial | .error _ => trivial⟩

/-- **What a sequence asks is what its parts ask.** -/
theorem calls_bind {C : β → Prop} {p : Prog S α} {f : α → Prog S β}
    (hp : p.Calls A B) (hf : ∀ a, B a → (f a).Calls A C) : (p.bind f).Calls A C := by
  induction p with
  | ret a => exact hf a hp
  | raise e => exact trivial
  | call op k ih => exact ⟨hp.1, fun r => ih r (hp.2 r)⟩

theorem calls_mono {p : Prog S α} (hp : p.Calls A B) (hA : ∀ op, A op → A' op)
    (hB : ∀ a, B a → B' a) : p.Calls A' B' := by
  induction p with
  | ret a => exact hB a hp
  | raise e => exact trivial
  | call op k ih => exact ⟨hA op hp.1, fun r => ih r (hp.2 r)⟩

/-- A program whose calls keep a relation keeps it, run alone. -/
theorem alone_of_calls {W : Type} {exec : (op : S.Op) → W → W × Except S.Err (S.Res op)}
    {R : W → W → Prop} {p : Prog S α} (hp : p.Calls A B) (hrefl : ∀ w, R w w)
    (htrans : ∀ w w' w'', R w w' → R w' w'' → R w w'')
    (hA : ∀ op w, A op → R w (exec op w).1) (w : W) :
    p.Alone exec (fun w' _ => R w w') w := by
  induction p generalizing w with
  | ret a => exact hrefl w
  | raise e => exact hrefl w
  | call op k ih => exact htrans _ _ _ (hA op w hp.1) (ih _ (hp.2 _) _)

/-- Catching what a program throws asks nothing more. -/
theorem calls_attempt {p : Prog S α} (hp : p.Calls A B) :
    p.attempt.Calls A (fun r => ∀ a, r = .ok a → B a) := by
  induction p with
  | ret a =>
    intro b hb
    cases hb
    exact hp
  | raise e =>
    intro b hb
    cases hb
  | call op k ih => exact ⟨hp.1, fun r => ih r (hp.2 r)⟩

end

end Prog
