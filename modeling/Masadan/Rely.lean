import Mathlib.Logic.Relation
import Masadan.Pool

/-!
# Reasoning about programs that take turns

A program among others is verified alone, against a promise and for a promise.
A `Protocol` fixes both: an invariant of the world, a relation `Evolves` that
every call of every program stays within, and therefore the most a program can
find changed when its next call is answered – the reflexive transitive closure
of `Evolves`, called `Rely`. `Ok` says that a program keeps the protocol: from
any world the others may have led to, each of its calls keeps the invariant and
stays within `Evolves`, and what it returns satisfies a postcondition over
everything it has seen.

`Sound.run` is the parallel rule. If every request's program is `Ok`, so is
every pool any run leads to: the invariant holds, the world evolved, and each
finished program satisfies its postcondition. The premises are one program at a
time and mention no interleaving.

Three things make the rule fit servers. A protocol may assume something of the
steps taken (`Guard`), such as that a program does not act on what is no longer
so; runs are then required to meet the condition. A protocol may ask more of a
step than a relation between two worlds (`Local`). And because a program's view is
kept, the steps of two programs can be compared: they come in some order
(`PoolOk.ordered`), so a change that can happen only once is made by one
program (`PoolOk.at_most_one`).
-/

open Relation

universe u

variable {S : Sig.{u}}

/-- **The promise**: what every step keeps, and what may be assumed of the
steps. -/
structure Protocol (Y : Sys S) where
  /-- What is true of the world between calls. -/
  Inv : Y.World → Prop
  /-- How one step may change the world. -/
  Evolves : Y.World → Y.World → Prop
  /-- Not changing the world is within the protocol. -/
  refl : ∀ w, Evolves w w
  /-- What may be assumed of the step about to be taken. -/
  Guard : Y.Req → View S Y.World → Y.Choice → S.Op → Y.World → Bool := fun _ _ _ _ _ => true
  /-- What more a step keeps, in view of what its program has seen. -/
  Local : Y.Req → View S Y.World → Event S Y.World → Prop := fun _ _ _ => True

namespace Protocol

variable {Y : Sys S} {α β : Type} (P : Protocol Y)

/-- What a program may find changed while it waits. -/
def Rely : Y.World → Y.World → Prop := ReflTransGen P.Evolves

/-- A step that keeps the protocol. -/
structure Takes (r : Y.Req) (v : View S Y.World) (e : Event S Y.World) : Prop where
  /-- The invariant holds after the step. -/
  inv : P.Inv e.after
  /-- The step stays within the relation. -/
  evolves : P.Evolves e.before e.after
  /-- The step keeps what the protocol asks of it beyond that. -/
  here : P.Local r v e

/-- **The program keeps the protocol**, and returns or throws what `Q` allows in
view of what it has seen. -/
def Ok (r : Y.Req) (Q : View S Y.World → Except S.Err α → Prop) :
    View S Y.World → Prog S α → Prop
  | v, .ret a => Q v (.ok a)
  | v, .raise e => Q v (.error e)
  | v, .call op k => ∀ w c, P.Inv w → P.Rely v.since w → P.Guard r v c op w = true →
      P.Takes r v ⟨op, w, (Y.exec c op w).1⟩
        ∧ Ok r Q (v.push ⟨op, w, (Y.exec c op w).1⟩) (k (Y.exec c op w).2)

variable {P}

/-- What one step keeps, any number of steps keep. -/
theorem Rely.stable {D : Y.World → Prop} (hD : ∀ w w', P.Evolves w w' → D w → D w')
    {w w' : Y.World} (h : P.Rely w w') (hw : D w) : D w' := by
  induction h with
  | refl => exact hw
  | tail _ hstep ih => exact hD _ _ hstep ih

theorem Rely.rfl' {w : Y.World} : P.Rely w w := ReflTransGen.refl

theorem Rely.trans' {w w' w'' : Y.World} (h : P.Rely w w') (h' : P.Rely w' w'') :
    P.Rely w w'' := ReflTransGen.trans h h'

theorem Rely.single {w w' : Y.World} (h : P.Evolves w w') : P.Rely w w' :=
  ReflTransGen.single h

/-- Where two changes in a row make one, whatever is found changed is one change. -/
theorem Rely.evolves (htrans : ∀ {w w' w''}, P.Evolves w w' → P.Evolves w' w'' → P.Evolves w w'')
    {w w' : Y.World} (h : P.Rely w w') : P.Evolves w w' := by
  induction h with
  | refl => exact P.refl _
  | tail _ hstep ih => exact htrans ih hstep

/-! ## Rules -/

section Rules

variable {r : Y.Req} {Q : View S Y.World → Except S.Err α → Prop} {v : View S Y.World}

@[simp] theorem ok_ret {a : α} : P.Ok r Q v (.ret a) ↔ Q v (.ok a) := Iff.rfl

@[simp] theorem ok_raise {e : S.Err} : P.Ok r Q v (.raise e : Prog S α) ↔ Q v (.error e) :=
  Iff.rfl

/-- A value returned, or an error thrown. -/
theorem ok_ofExcept {x : Except S.Err α} (h : Q v x) : P.Ok r Q v (Prog.ofExcept x) := by
  cases x with
  | ok a => exact h
  | error e => exact h

/-- Consequence: a weaker postcondition. -/
theorem ok_mono {Q' : View S Y.World → Except S.Err α → Prop} {p : Prog S α}
    (h : P.Ok r Q v p) (hQ : ∀ v x, Q v x → Q' v x) : P.Ok r Q' v p := by
  induction p generalizing v with
  | ret a => exact hQ _ _ h
  | raise e => exact hQ _ _ h
  | call op k ih =>
    intro w c hw hv hg
    obtain ⟨ht, hk⟩ := h w c hw hv hg
    exact ⟨ht, ih _ hk⟩

/-- **Sequencing.** A sequence keeps the protocol when its first part does, and
its second part does from whatever the first returned; what the first throws
is thrown. -/
theorem ok_bind {Q : View S Y.World → Except S.Err β → Prop} {p : Prog S α}
    {f : α → Prog S β}
    (h : P.Ok r (fun v x => match x with
      | .ok a => P.Ok r Q v (f a)
      | .error e => Q v (.error e)) v p) : P.Ok r Q v (p.bind f) := by
  induction p generalizing v with
  | ret a => exact h
  | raise e => exact h
  | call op k ih =>
    intro w c hw hv hg
    obtain ⟨ht, hk⟩ := h w c hw hv hg
    exact ⟨ht, ih _ hk⟩

/-- A map over what a program returns. -/
theorem ok_map {Q : View S Y.World → Except S.Err β → Prop} {p : Prog S α} {f : α → β}
    (h : P.Ok r (fun v x => Q v (x.map f)) v p) : P.Ok r Q v (f <$> p) := by
  refine ok_bind (ok_mono h (fun v x hx => ?_))
  cases x with
  | ok a => exact hx
  | error e => exact hx

/-- **`try`.** Nothing is thrown past it; the postcondition sees the outcome. -/
theorem ok_attempt {Q : View S Y.World → Except S.Err (Except S.Err α) → Prop}
    {p : Prog S α} (h : P.Ok r (fun v x => Q v (.ok x)) v p) : P.Ok r Q v p.attempt := by
  induction p generalizing v with
  | ret a => exact h
  | raise e => exact h
  | call op k ih =>
    intro w c hw hv hg
    obtain ⟨ht, hk⟩ := h w c hw hv hg
    exact ⟨ht, ih _ hk⟩

/-- One call, then the rest. -/
theorem ok_perform_bind {Q : View S Y.World → Except S.Err β → Prop} {op : S.Op}
    {f : S.Res op → Prog S β}
    (h : ∀ w c, P.Inv w → P.Rely v.since w → P.Guard r v c op w = true →
      P.Takes r v ⟨op, w, (Y.exec c op w).1⟩
        ∧ match (Y.exec c op w).2 with
          | .ok a => P.Ok r Q (v.push ⟨op, w, (Y.exec c op w).1⟩) (f a)
          | .error e => Q (v.push ⟨op, w, (Y.exec c op w).1⟩) (.error e)) :
    P.Ok r Q v ((Prog.perform op).bind f) := by
  intro w c hw hv hg
  obtain ⟨ht, hk⟩ := h w c hw hv hg
  refine ⟨ht, ?_⟩
  cases hx : (Y.exec c op w).2 with
  | ok a =>
    rw [hx] at hk
    exact hk
  | error e =>
    rw [hx] at hk
    exact hk

/-- One call. -/
theorem ok_perform {op : S.Op} (h : ∀ w c, P.Inv w → P.Rely v.since w →
      P.Guard r v c op w = true → P.Takes r v ⟨op, w, (Y.exec c op w).1⟩) :
    P.Ok r (fun _ _ => True) v (Prog.perform op) := by
  intro w c hw hv hg
  refine ⟨h w c hw hv hg, ?_⟩
  cases (Y.exec c op w).2 with
  | ok a => exact trivial
  | error e => exact trivial

/-- **A program is `Ok` for the calls it makes** when the protocol allows each of
them from every world, given something `K` of what the program has seen that
seeing more does not undo. -/
theorem ok_of_calls_given {A : S.Op → Prop} {B : α → Prop} {p : Prog S α}
    {K : List (Event S Y.World) → Prop} (hp : p.Calls A B) (hK : ∀ e es, K es → K (e :: es))
    (hA : ∀ v w c op, K v.past → A op → P.Inv w → P.Guard r v c op w = true →
      P.Takes r v ⟨op, w, (Y.exec c op w).1⟩) (hv : K v.past) :
    P.Ok r (fun _ x => ∀ a, x = .ok a → B a) v p := by
  induction p generalizing v with
  | ret a =>
    intro b hb
    cases hb
    exact hp
  | raise e =>
    intro b hb
    cases hb
  | call op k ih =>
    intro w c hw _ hg
    exact ⟨hA v w c op hv hp.1 hw hg, ih _ (hp.2 _) (hK _ _ hv)⟩

theorem ok_of_calls {A : S.Op → Prop} {B : α → Prop} {p : Prog S α} (hp : p.Calls A B)
    (hA : ∀ v w c op, A op → P.Inv w → P.Guard r v c op w = true →
      P.Takes r v ⟨op, w, (Y.exec c op w).1⟩) :
    P.Ok r (fun _ x => ∀ a, x = .ok a → B a) v p :=
  ok_of_calls_given (K := fun _ => True) hp (fun _ _ h => h)
    (fun v w c op _ => hA v w c op) trivial

/-- A program none of whose steps is assumed keeps any protocol. -/
theorem ok_of_never {p : Prog S α} (hg : ∀ c op w, P.Guard r v c op w = false)
    (hQ : ∀ x, Q v x) : P.Ok r Q v p := by
  cases p with
  | ret a => exact hQ _
  | raise e => exact hQ _
  | call op k =>
    intro w c _ _ h
    rw [hg] at h
    cases h

/-- A program's postcondition may also say what the program itself did to its
view: it made calls, and the world evolved. -/
theorem ok_extend {p : Prog S α} (h : P.Ok r Q v p) :
    P.Ok r (fun v' x => Q v' x ∧ v'.born = v.born ∧ v.past <:+ v'.past
      ∧ P.Rely v.since v'.since) v p := by
  induction p generalizing v with
  | ret a => exact ⟨h, rfl, List.suffix_rfl, Rely.rfl'⟩
  | raise e => exact ⟨h, rfl, List.suffix_rfl, Rely.rfl'⟩
  | call op k ih =>
    intro w c hw hv hg
    obtain ⟨ht, hk⟩ := h w c hw hv hg
    refine ⟨ht, ok_mono (ih _ hk) (fun v' x hx => ?_)⟩
    obtain ⟨hQ, hborn, hpast, hrely⟩ := hx
    exact ⟨hQ, hborn, (List.suffix_cons _ _).trans hpast,
      (hv.trans' (Rely.single ht.evolves)).trans' hrely⟩

/-- Sequencing after a program of which only the calls are known. -/
theorem ok_calls_bind {A : S.Op → Prop} {B : α → Prop}
    {Q : View S Y.World → Except S.Err β → Prop} {p : Prog S α} {f : α → Prog S β}
    (hp : p.Calls A B)
    (hA : ∀ v w c op, A op → P.Inv w → P.Guard r v c op w = true →
      P.Takes r v ⟨op, w, (Y.exec c op w).1⟩)
    (hf : ∀ v' a, B a → v.past <:+ v'.past → P.Rely v.since v'.since → P.Ok r Q v' (f a))
    (he : ∀ v' e, v.past <:+ v'.past → P.Rely v.since v'.since → Q v' (.error e)) :
    P.Ok r Q v (p.bind f) := by
  refine ok_bind (ok_mono (ok_extend (ok_of_calls hp hA)) (fun v' x hx => ?_))
  obtain ⟨hB, _, hpast, hrely⟩ := hx
  cases x with
  | ok a => exact hf v' a (hB a rfl) hpast hrely
  | error e => exact he v' e hpast hrely

/-- **A program that keeps the protocol keeps it alone**: what its steps keep, it keeps,
when nothing is assumed of them. -/
theorem ok_alone {A : S.Op → Prop} {B : α → Prop} {K : Y.World → Prop} {p : Prog S α}
    {c : Y.Choice} {w : Y.World} (h : P.Ok r Q v p) (hp : p.Calls A B)
    (hguard : ∀ v op w, P.Guard r v c op w = true)
    (hK : ∀ v op w, A op → P.Takes r v ⟨op, w, (Y.exec c op w).1⟩ → K w → K (Y.exec c op w).1)
    (hinv : P.Inv w) (hv : P.Rely v.since w) (hw : K w) :
    p.Alone (Y.exec c) (fun w' _ => K w') w := by
  induction p generalizing v w with
  | ret a => exact hw
  | raise e => exact hw
  | call op k ih =>
    obtain ⟨ht, hk⟩ := h w c hinv hv (hguard v op w)
    exact ih _ hk (hp.2 _) ht.inv Rely.rfl' (hK v op w hp.1 ht hw)

end Rules

/-! ## The parallel rule -/

variable (P)

/-- The condition a run has to meet: each call is answered where the protocol
assumes it is. -/
def cond (p : Y.Pool) : Y.Action → Bool
  | .step i c =>
    match p.threads[i]? with
    | none => true
    | some t =>
      match t.prog.next with
      | none => true
      | some op => P.Guard t.req t.view c op p.world
  | _ => true

theorem cond_step {p : Y.Pool} {i : ℕ} {c : Y.Choice} {t : Y.Thread}
    (ht : p.threads[i]? = some t) {op : S.Op}
    {k : Except S.Err (S.Res op) → Prog S Y.Ans} (hk : t.prog = .call op k)
    (h : P.cond p (.step i c) = true) : P.Guard t.req t.view c op p.world = true := by
  simpa only [cond, ht, hk, Prog.next] using h

/-- A protocol that assumes nothing of the steps asks nothing of an action. -/
theorem cond_true (h : ∀ r v c op w, P.Guard r v c op w = true) (p : Y.Pool) (a : Y.Action) :
    P.cond p a = true := by
  cases a with
  | arrive r => rfl
  | env e => rfl
  | step i c =>
    unfold cond
    dsimp only
    split
    · rfl
    · split
      · rfl
      · exact h _ _ _ _ _

/-- It asks nothing of a run. -/
theorem meets_cond (h : ∀ r v c op w, P.Guard r v c op w = true) (p : Y.Pool)
    (acts : List Y.Action) : p.Meets P.cond acts = true := by
  induction acts generalizing p with
  | nil => rfl
  | cons a as ih => exact Sys.Pool.meets_cons.mpr ⟨P.cond_true h p a, ih _⟩

/-- An action meets the condition when the step it takes, if any, is one the protocol
assumes. -/
theorem cond_of_step {p : Y.Pool} {a : Y.Action}
    (h : ∀ i c t op k, a = .step i c → p.threads[i]? = some t → t.prog = .call op k →
      P.Guard t.req t.view c op p.world = true) : P.cond p a = true := by
  cases a with
  | arrive r => rfl
  | env e => rfl
  | step i c =>
    unfold cond
    dsimp only
    cases ht : p.threads[i]? with
    | none => rfl
    | some t =>
      dsimp only
      cases hk : t.prog with
      | ret a => rfl
      | raise e => rfl
      | call op k => exact h i c t op k rfl ht hk

/-- What more is assumed asks more of a run. -/
theorem meets_of_guard {P' : Protocol Y} {p : Y.Pool} {acts : List Y.Action}
    (h : ∀ r v c op w, P.Guard r v c op w = true → P'.Guard r v c op w = true)
    (hm : p.Meets P.cond acts = true) : p.Meets P'.cond acts = true :=
  Sys.Pool.meets_of_prefix hm (fun _ _ _ _ ha => P'.cond_of_step
    (fun _ _ _ _ _ heq ht hk => h _ _ _ _ _ (P.cond_step ht hk (heq ▸ ha))))

/-- The protocol, when more may be assumed of the steps. -/
abbrev under (G : Y.Req → View S Y.World → Y.Choice → S.Op → Y.World → Bool) : Protocol Y :=
  { P with Guard := fun r v c op w => P.Guard r v c op w && G r v c op w }

theorem under_guard {G : Y.Req → View S Y.World → Y.Choice → S.Op → Y.World → Bool} {r : Y.Req}
    {v : View S Y.World} {c : Y.Choice} {op : S.Op} {w : Y.World} :
    (P.under G).Guard r v c op w = true ↔ P.Guard r v c op w = true ∧ G r v c op w = true :=
  Bool.and_eq_true_iff

/-- What keeps the protocol keeps it when more is assumed. -/
theorem ok_under {G : Y.Req → View S Y.World → Y.Choice → S.Op → Y.World → Bool} {r : Y.Req}
    {Q : View S Y.World → Except S.Err α → Prop} {v : View S Y.World} {p : Prog S α}
    (h : P.Ok r Q v p) : (P.under G).Ok r Q v p := by
  induction p generalizing v with
  | ret a => exact h
  | raise e => exact h
  | call op k ih =>
    intro w c hw hv hg
    obtain ⟨ht, hk⟩ := h w c hw hv (Bool.and_eq_true_iff.mp hg).1
    exact ⟨⟨ht.inv, ht.evolves, ht.here⟩, ih _ hk⟩

/-- **Every request keeps the protocol**: the environment does, and each
request's program is `Ok` from its start, with the postcondition of the
request. -/
structure Sound (Post : Y.Req → View S Y.World → Except S.Err Y.Ans → Prop) : Prop where
  /-- The environment keeps the protocol. -/
  env : ∀ e w, P.Inv w → P.Inv (Y.env e w) ∧ P.Evolves w (Y.env e w)
  /-- So does every request. -/
  entry : ∀ r w, P.Inv w → P.Ok r (Post r) ⟨w, []⟩ (Y.prog r)

/-- A call some program made on the way from `w₀` to `w`. -/
structure Made (w₀ w : Y.World) (e : Event S Y.World) : Prop where
  /-- It was made in a world the run had reached. -/
  reached : P.Rely w₀ e.before
  /-- The invariant held there. -/
  inv : P.Inv e.before
  /-- The call stayed within the relation. -/
  evolves : P.Evolves e.before e.after
  /-- The invariant held after it. -/
  inv_after : P.Inv e.after
  /-- The run went on from there. -/
  led : P.Rely e.after w

/-- **What is true of every pool a run leads to.** -/
structure PoolOk (Post : Y.Req → View S Y.World → Except S.Err Y.Ans → Prop)
    (w₀ : Y.World) (p : Y.Pool) : Prop where
  /-- The invariant holds. -/
  inv : P.Inv p.world
  /-- The world evolved. -/
  rely : P.Rely w₀ p.world
  /-- What is left of each program keeps the protocol. -/
  ok : ∀ t ∈ p.threads, P.Ok t.req (Post t.req) t.view t.prog
  /-- The world went on from where each program last left it. -/
  since : ∀ t ∈ p.threads, P.Rely t.view.since p.world
  /-- Every call a program remembers was made. -/
  made : ∀ t ∈ p.threads, ∀ e ∈ t.view.past, P.Made w₀ p.world e
  /-- The calls of two programs come in some order. -/
  ordered : ∀ (i j : ℕ) (t t' : Y.Thread), i ≠ j → p.threads[i]? = some t → p.threads[j]? = some t' →
    ∀ e ∈ t.view.past, ∀ e' ∈ t'.view.past,
      P.Rely e.after e'.before ∨ P.Rely e'.after e.before

variable {P} {Post : Y.Req → View S Y.World → Except S.Err Y.Ans → Prop} {w₀ : Y.World}
  {p : Y.Pool}

/-- What is sound is sound when more is assumed. -/
theorem Sound.under (h : P.Sound Post)
    (G : Y.Req → View S Y.World → Y.Choice → S.Op → Y.World → Bool) : (P.under G).Sound Post where
  env := h.env
  entry r w hw := P.ok_under (h.entry r w hw)

theorem Made.extend {w w' : Y.World} {e : Event S Y.World} (h : P.Made w₀ w e)
    (hw : P.Rely w w') : P.Made w₀ w' e :=
  ⟨h.reached, h.inv, h.evolves, h.inv_after, h.led.trans' hw⟩

namespace PoolOk

theorem init (h₀ : P.Inv w₀) : P.PoolOk Post w₀ (Sys.Pool.init w₀) where
  inv := h₀
  rely := Rely.rfl'
  ok := fun _ ht => absurd ht List.not_mem_nil
  since := fun _ ht => absurd ht List.not_mem_nil
  made := fun _ ht => absurd ht List.not_mem_nil
  ordered := by
    intro i j t t' _ hi
    cases hi

/-- A finished program satisfies its postcondition. -/
theorem post (h : P.PoolOk Post w₀ p) {t : Y.Thread} (ht : t ∈ p.threads)
    {x : Except S.Err Y.Ans} (hx : t.outcome = some x) : Post t.req t.view x := by
  have hok := h.ok t ht
  unfold Sys.Thread.outcome at hx
  cases hp : t.prog with
  | ret a =>
    rw [hp] at hok hx
    cases hx
    exact hok
  | raise e =>
    rw [hp] at hok hx
    cases hx
    exact hok
  | call op k =>
    rw [hp] at hx
    cases hx

/-- More programs at their start: the pool stays good. -/
theorem spawn (hS : P.Sound Post) (h : P.PoolOk Post w₀ p) (rs : List Y.Req) :
    P.PoolOk Post w₀ ⟨p.world, p.threads ++ rs.map (fun r => Sys.start r p.world)⟩ := by
  -- a program is an old one, or one at its start, with nothing in its past
  have hmem : ∀ t ∈ p.threads ++ rs.map (fun r => Sys.start r p.world),
      t ∈ p.threads ∨ ∃ r, t = Sys.start r p.world := by
    intro t ht
    rcases List.mem_append.mp ht with h | h
    · exact .inl h
    · obtain ⟨r, _, hr⟩ := List.mem_map.mp h
      exact .inr ⟨r, hr.symm⟩
  have hget : ∀ (i : ℕ) (t : Y.Thread), (p.threads ++ rs.map (fun r => Sys.start r p.world))[i]? = some t →
      p.threads[i]? = some t ∨ t.view.past = [] := by
    intro i t hi
    rw [List.getElem?_append] at hi
    split at hi
    · exact .inl hi
    · obtain ⟨r, _, hr⟩ := List.mem_map.mp (List.mem_of_getElem? hi)
      exact .inr (by rw [← hr]; rfl)
  refine ⟨h.inv, h.rely, ?_, ?_, ?_, ?_⟩
  · intro t ht
    rcases hmem t ht with h' | ⟨r, rfl⟩
    · exact h.ok t h'
    · exact hS.entry r p.world h.inv
  · intro t ht
    rcases hmem t ht with h' | ⟨r, rfl⟩
    · exact h.since t h'
    · exact Rely.rfl'
  · intro t ht e he
    rcases hmem t ht with h' | ⟨r, rfl⟩
    · exact h.made t h' e he
    · exact absurd he List.not_mem_nil
  · intro i j t t' hij hi hj e he e' he'
    rcases hget i t hi with hi' | hnil
    · rcases hget j t' hj with hj' | hnil
      · exact h.ordered i j t t' hij hi' hj' e he e' he'
      · rw [hnil] at he'
        exact absurd he' List.not_mem_nil
    · rw [hnil] at he
      exact absurd he List.not_mem_nil

/-- One call answered: the pool stays good, and the call kept the protocol. -/
theorem answer (h : P.PoolOk Post w₀ p) {i : ℕ} {t : Y.Thread}
    (ht : p.threads[i]? = some t) {op : S.Op}
    {k : Except S.Err (S.Res op) → Prog S Y.Ans} (hk : t.prog = .call op k) {c : Y.Choice}
    (hg : P.Guard t.req t.view c op p.world = true) :
    P.Takes t.req t.view ⟨op, p.world, (Y.exec c op p.world).1⟩
      ∧ P.PoolOk Post w₀ ⟨(Y.exec c op p.world).1,
          p.threads.set i ⟨t.req, t.view.push ⟨op, p.world, (Y.exec c op p.world).1⟩,
            k (Y.exec c op p.world).2⟩⟩ := by
  have htm := List.mem_of_getElem? ht
  have hok := h.ok t htm
  rw [hk] at hok
  obtain ⟨htake, hrest⟩ := hok p.world c h.inv (h.since t htm) hg
  refine ⟨htake, ?_⟩
  set w' := (Y.exec c op p.world).1 with hw'
  set e₀ : Event S Y.World := ⟨op, p.world, w'⟩ with he₀
  have hstep : P.Rely p.world w' := Rely.single htake.evolves
  have hmade₀ : P.Made w₀ w' e₀ :=
    ⟨h.rely, h.inv, htake.evolves, htake.inv, Rely.rfl'⟩
  have hmem : ∀ t' ∈ p.threads.set i ⟨t.req, t.view.push e₀, k (Y.exec c op p.world).2⟩,
      t' ∈ p.threads ∨ t' = ⟨t.req, t.view.push e₀, k (Y.exec c op p.world).2⟩ :=
    fun t' ht' => List.mem_or_eq_of_mem_set ht'
  -- the calls of the program that moved: its old ones, and the new one
  have hpast : ∀ (j : ℕ) (t' : Y.Thread), (p.threads.set i
      ⟨t.req, t.view.push e₀, k (Y.exec c op p.world).2⟩)[j]? = some t' →
      ∃ t₁, p.threads[j]? = some t₁ ∧
        ∀ e ∈ t'.view.past, e ∈ t₁.view.past ∨ (j = i ∧ e = e₀) := by
    intro j t' hj
    rw [List.getElem?_set] at hj
    split at hj
    · next hij =>
      subst hij
      split at hj
      · cases hj
        refine ⟨t, ht, fun e he => ?_⟩
        rcases List.mem_cons.mp he with rfl | he
        · exact .inr ⟨rfl, rfl⟩
        · exact .inl he
      · cases hj
    · exact ⟨t', hj, fun e he => .inl he⟩
  refine ⟨htake.inv, h.rely.trans' hstep, ?_, ?_, ?_, ?_⟩
  · intro t' ht'
    rcases hmem t' ht' with h' | rfl
    · exact h.ok t' h'
    · exact hrest
  · intro t' ht'
    rcases hmem t' ht' with h' | rfl
    · exact (h.since t' h').trans' hstep
    · exact Rely.rfl'
  · intro t' ht' e he
    rcases hmem t' ht' with h' | rfl
    · exact (h.made t' h' e he).extend hstep
    · rcases List.mem_cons.mp he with rfl | he
      · exact hmade₀
      · exact (h.made t htm e he).extend hstep
  · intro a b t₁ t₂ hab ha hb e he e' he'
    obtain ⟨s₁, hs₁, hp₁⟩ := hpast a t₁ ha
    obtain ⟨s₂, hs₂, hp₂⟩ := hpast b t₂ hb
    rcases hp₁ e he with h₁ | ⟨rfl, rfl⟩
    · rcases hp₂ e' he' with h₂ | ⟨rfl, rfl⟩
      · exact h.ordered a b s₁ s₂ hab hs₁ hs₂ e h₁ e' h₂
      · exact .inl (h.made s₁ (List.mem_of_getElem? hs₁) e h₁).led
    · rcases hp₂ e' he' with h₂ | ⟨rfl, _⟩
      · exact .inr (h.made s₂ (List.mem_of_getElem? hs₂) e' h₂).led
      · exact absurd rfl hab

/-- **One action keeps the pool good.** -/
theorem act (hS : P.Sound Post) (h : P.PoolOk Post w₀ p) {a : Y.Action}
    (ha : P.cond p a = true) : P.PoolOk Post w₀ (p.act a) := by
  cases a with
  | arrive r =>
    show P.PoolOk Post w₀ (if Y.external r then _ else p)
    split
    · exact h.spawn hS [r]
    · exact h
  | step i c =>
    rcases p.step_cases i c with hs | ⟨t, op, k, ht, hk, hs⟩
    · show P.PoolOk Post w₀ (p.step i c)
      rw [hs]
      exact h
    · show P.PoolOk Post w₀ (p.step i c)
      rw [hs]
      exact (h.answer ht hk (P.cond_step ht hk ha)).2.spawn hS (Y.spawns op)
  | env e =>
    obtain ⟨hinv, hev⟩ := hS.env e p.world h.inv
    have hstep : P.Rely p.world (Y.env e p.world) := Rely.single hev
    show P.PoolOk Post w₀ ⟨Y.env e p.world, if Y.kills e then [] else p.threads⟩
    split
    · exact ⟨hinv, h.rely.trans' hstep, fun _ ht => absurd ht List.not_mem_nil,
        fun _ ht => absurd ht List.not_mem_nil, fun _ ht => absurd ht List.not_mem_nil,
        fun i j t t' _ hi => by cases hi⟩
    · exact ⟨hinv, h.rely.trans' hstep, h.ok, fun t ht => (h.since t ht).trans' hstep,
        fun t ht e' he' => (h.made t ht e' he').extend hstep, h.ordered⟩

/-- One action changes the world as the protocol allows. -/
theorem act_evolves (hS : P.Sound Post) (h : P.PoolOk Post w₀ p) {a : Y.Action}
    (ha : P.cond p a = true) : P.Evolves p.world (p.act a).world := by
  cases a with
  | arrive r =>
    show P.Evolves p.world (if Y.external r then _ else p : Y.Pool).world
    split
    · exact P.refl _
    · exact P.refl _
  | step i c =>
    show P.Evolves p.world (p.step i c).world
    rcases p.step_cases i c with hs | ⟨t, op, k, ht, hk, hs⟩
    · rw [hs]
      exact P.refl _
    · rw [hs]
      exact (h.answer ht hk (P.cond_step ht hk ha)).1.evolves
  | env e => exact (hS.env e p.world h.inv).2

/-- **What an action does to the world**: nothing, or what the environment does, or it
answers a call, within the protocol. -/
theorem act_cases (h : P.PoolOk Post w₀ p) {a : Y.Action} (ha : P.cond p a = true) :
    (p.act a).world = p.world ∨ (∃ e, a = .env e ∧ (p.act a).world = Y.env e p.world)
      ∨ ∃ i c t op k, a = .step i c ∧ p.threads[i]? = some t ∧ t.prog = .call op k
        ∧ (p.act a).world = (Y.exec c op p.world).1
        ∧ P.Guard t.req t.view c op p.world = true
        ∧ P.Takes t.req t.view ⟨op, p.world, (p.act a).world⟩ := by
  cases a with
  | arrive r =>
    left
    show (if Y.external r then _ else p : Y.Pool).world = p.world
    split
    · rfl
    · rfl
  | step i c =>
    rcases p.step_cases i c with hs | ⟨t, op, k, ht, hk, hs⟩
    · left
      show (p.step i c).world = p.world
      rw [hs]
    · have hg := P.cond_step ht hk ha
      have hworld : (p.act (.step i c)).world = (Y.exec c op p.world).1 := by
        show (p.step i c).world = _
        rw [hs]
      refine .inr (.inr ⟨i, c, t, op, k, rfl, ht, hk, hworld, hg, ?_⟩)
      rw [hworld]
      exact (h.answer ht hk hg).1
  | env e => exact .inr (.inl ⟨e, rfl, rfl⟩)

/-- **A change that cannot be undone is made by one program.** If `D`, once true,
stays true, two programs cannot both have made a call that made it true. -/
theorem at_most_one (h : P.PoolOk Post w₀ p) {D : Y.World → Prop}
    (hD : ∀ w w', P.Evolves w w' → D w → D w') {i j : ℕ} {t t' : Y.Thread}
    (hi : p.threads[i]? = some t) (hj : p.threads[j]? = some t')
    {e e' : Event S Y.World} (he : e ∈ t.view.past) (he' : e' ∈ t'.view.past)
    (hne : ¬ D e.before) (hd : D e.after) (hne' : ¬ D e'.before) (hd' : D e'.after) :
    i = j := by
  by_contra hij
  rcases h.ordered i j t t' hij hi hj e he e' he' with ho | ho
  · exact hne' (ho.stable hD hd)
  · exact hne (ho.stable hD hd')

end PoolOk

/-- **The parallel rule.** Programs that each keep the protocol keep it together,
in every run whose steps are where the protocol assumes they are. -/
theorem Sound.run (hS : P.Sound Post) (h₀ : P.Inv w₀) {acts : List Y.Action}
    (hm : (Sys.Pool.init w₀).Meets P.cond acts = true) :
    P.PoolOk Post w₀ ((Sys.Pool.init w₀).run acts) :=
  Sys.Pool.run_induction (P.PoolOk Post w₀) (fun _ _ h ha => h.act hS ha)
    (PoolOk.init h₀) hm

/-- From each pool of a run to the next the world changes as the protocol
allows. -/
theorem Sound.run_step (hS : P.Sound Post) (h₀ : P.Inv w₀) {pre post : List Y.Action}
    {a : Y.Action} (hm : (Sys.Pool.init w₀).Meets P.cond (pre ++ a :: post) = true) :
    P.Evolves ((Sys.Pool.init w₀).run pre).world ((Sys.Pool.init w₀).run (pre ++ [a])).world := by
  obtain ⟨hpre, hrest⟩ := Sys.Pool.meets_append.mp hm
  rw [Sys.Pool.run_append]
  exact (hS.run h₀ hpre).act_evolves hS (Sys.Pool.meets_cons.mp hrest).1

/-- From each pool of a run to a later one the world evolves. -/
theorem Sound.run_rely (hS : P.Sound Post) (h₀ : P.Inv w₀) {pre post : List Y.Action}
    (hm : (Sys.Pool.init w₀).Meets P.cond (pre ++ post) = true) :
    P.Rely ((Sys.Pool.init w₀).run pre).world ((Sys.Pool.init w₀).run (pre ++ post)).world := by
  obtain ⟨hpre, hpost⟩ := Sys.Pool.meets_append.mp hm
  rw [Sys.Pool.run_append]
  refine (Sys.Pool.run_induction
    (fun p => P.PoolOk Post w₀ p ∧ P.Rely ((Sys.Pool.init w₀).run pre).world p.world)
    (fun p a hp ha => ?_) ⟨hS.run h₀ hpre, Rely.rfl'⟩ hpost).2
  exact ⟨hp.1.act hS ha, hp.2.trans' (Rely.single (hp.1.act_evolves hS ha))⟩

/-! ## What programs check themselves

A guard is an assumption about the runs. A program that has made the check itself, in a call
before, owes the assumption only to what came between: when that is nothing, the guard holds. -/

/-- The protocol that asks of a call what its program has seen before it. -/
abbrev checking (C : Y.Req → View S Y.World → S.Op → Prop) : Protocol Y where
  Inv _ := True
  Evolves _ _ := True
  refl _ := trivial
  Local r v e := C r v e.op

/-- A program of whose calls nothing is asked. -/
theorem ok_checking {C : Y.Req → View S Y.World → S.Op → Prop} {r : Y.Req} {v : View S Y.World}
    {Q : View S Y.World → Except S.Err α → Prop} {p : Prog S α} (hC : ∀ v op, C r v op)
    (hQ : ∀ v x, Q v x) : (checking C).Ok r Q v p := by
  induction p generalizing v with
  | ret a => exact hQ _ _
  | raise e => exact hQ _ _
  | call op k ih => exact fun w c _ _ _ => ⟨⟨trivial, trivial, hC v op⟩, ih _⟩

/-- **What the answered calls of a run find**: `F` is true of each, of what its program has seen
and of the world that answers it. -/
def Finds (F : Y.Req → View S Y.World → S.Op → Y.World → Prop) (p : Y.Pool)
    (acts : List Y.Action) : Prop :=
  ∀ pre i c post t op k, acts = pre ++ .step i c :: post → (p.run pre).threads[i]? = some t →
    t.prog = .call op k → F t.req t.view op (p.run pre).world

/-- **A run meets a guard that its programs have checked**, when what they have checked is
still so as they find the world. -/
theorem Sound.meets_of_finds {P' : Protocol Y} (hS : P.Sound Post) (h₀ : P.Inv w₀)
    (hnone : ∀ r v c op w, P.Guard r v c op w = true)
    {F : Y.Req → View S Y.World → S.Op → Y.World → Prop}
    (hguard : ∀ r v c op w, P.Takes r v ⟨op, w, (Y.exec c op w).1⟩ → F r v op w →
      P'.Guard r v c op w = true)
    {acts : List Y.Action} (hfinds : Finds F (Sys.Pool.init w₀) acts) :
    (Sys.Pool.init w₀).Meets P'.cond acts = true := by
  refine Sys.Pool.meets_of_prefix (P.meets_cond hnone _ _) (fun pre a post hacts _ => ?_)
  have hok := hS.run h₀ (P.meets_cond hnone _ pre)
  refine P'.cond_of_step (fun i c t op k ha ht hk => ?_)
  subst ha
  exact hguard _ _ _ _ _ (hok.answer ht hk (hnone _ _ _ _ _)).1
    (hfinds pre i c post t op k hacts ht hk)

end Protocol
