import Masadan.Rely

/-!
# What programs owe

Some promises are not kept at once. A step makes a thing due, and the program
that took it, or one that it starts, brings the thing later; meanwhile others
act. No invariant of the world says that the thing will come. What is true all
along is that it is there, *or that somebody in flight still owes it*.

A `Debt` says when the thing is due, when it is paid, and which programs owe
it. A program is `Honest` when each of its steps passes the debt on: what was
paid, or owed by the program, is afterwards paid, or owed by the program, or
owed by one it has started; and what falls due in the step is. Then the debt
stays covered in every run (`Solvent.covered`), and when nobody owes it any
more it is paid (`Covered.paid`).

Programs can be ended from outside, and what they owe is lost with them; so a
run is required to end them only when what they owe is paid.
-/

universe u

variable {S : Sig.{u}}

/-- **A debt**: when it is due, when it is paid, and who owes it. -/
structure Debt (Y : Sys S) where
  /-- The thing is due. -/
  Due : Y.World → Prop
  /-- The thing is there. -/
  Paid : Y.World → Prop
  /-- The program owes the thing, in view of what it has seen and what is left of
  it. -/
  Owes : Y.Req → View S Y.World → Prog S Y.Ans → Prop
  /-- A program that owes is not through. -/
  waits : ∀ r v p, Owes r v p → p.outcome = none

variable {Y : Sys S}

namespace Debt

variable (D : Debt Y)

/-- **The debt is covered**: paid, or owed by a program in flight. -/
def Covered (p : Y.Pool) : Prop :=
  D.Paid p.world ∨ ∃ t ∈ p.threads, D.Owes t.req t.view t.prog

/-- After a step of a program the debt is paid, or owed by what is left of the
program, or by one that the step started. -/
def Passed (r : Y.Req) (v : View S Y.World) (op : S.Op) (w : Y.World)
    (rest : Prog S Y.Ans) : Prop :=
  D.Paid w ∨ D.Owes r v rest ∨ ∃ j ∈ Y.spawns op, D.Owes j ⟨w, []⟩ (Y.prog j)

variable {D}

/-- **What is covered and owed by nobody is paid.** -/
theorem Covered.paid {p : Y.Pool} (h : D.Covered p)
    (hnobody : ∀ t ∈ p.threads, ¬ D.Owes t.req t.view t.prog) : D.Paid p.world := by
  rcases h with h | ⟨t, ht, howes⟩
  · exact h
  · exact absurd howes (hnobody t ht)

/-- Nobody owes when nothing is in flight. -/
theorem nobody_of_quiet {p : Y.Pool} (hq : p.Quiet) :
    ∀ t ∈ p.threads, ¬ D.Owes t.req t.view t.prog :=
  fun t ht howes => hq t ht (D.waits _ _ _ howes)

end Debt

namespace Protocol

variable (P : Protocol Y) (D : Debt Y)

/-- **The program keeps the protocol and passes the debt on.** -/
def Honest (r : Y.Req) : View S Y.World → Prog S Y.Ans → Prop
  | _, .ret _ => True
  | _, .raise _ => True
  | v, .call op k => ∀ w c, P.Inv w → P.Rely v.since w → P.Guard r v c op w = true →
      P.Takes r v ⟨op, w, (Y.exec c op w).1⟩
      ∧ (D.Paid w ∨ D.Owes r v (.call op k) → D.Passed r
          (v.push ⟨op, w, (Y.exec c op w).1⟩) op (Y.exec c op w).1 (k (Y.exec c op w).2))
      ∧ (D.Due (Y.exec c op w).1 → D.Due w ∨ D.Passed r
          (v.push ⟨op, w, (Y.exec c op w).1⟩) op (Y.exec c op w).1 (k (Y.exec c op w).2))
      ∧ Honest r (v.push ⟨op, w, (Y.exec c op w).1⟩) (k (Y.exec c op w).2)

variable {P D} {r : Y.Req} {v : View S Y.World}

@[simp] theorem honest_ret {a : Y.Ans} : P.Honest D r v (.ret a) ↔ True := Iff.rfl

@[simp] theorem honest_raise {e : S.Err} : P.Honest D r v (.raise e) ↔ True := Iff.rfl

/-- An honest program keeps the protocol. -/
theorem Honest.ok {p : Prog S Y.Ans} (h : P.Honest D r v p) :
    P.Ok r (fun _ _ => True) v p := by
  induction p generalizing v with
  | ret a => exact trivial
  | raise e => exact trivial
  | call op k ih =>
    intro w c hw hv hg
    obtain ⟨ht, _, _, hrest⟩ := h w c hw hv hg
    exact ⟨ht, ih _ hrest⟩

/-- **A program that owes nothing and takes nothing away is honest**: none of its calls
undoes what is paid or makes anything due, given something `K` of what the program has
seen that its own calls keep. -/
theorem honest_of_calls {A : S.Op → Prop} {B : Y.Ans → Prop} {K : View S Y.World → Prop}
    {p : Prog S Y.Ans} (hp : p.Calls A B)
    (hA : ∀ v w c op, K v → A op → P.Inv w → P.Guard r v c op w = true →
      P.Takes r v ⟨op, w, (Y.exec c op w).1⟩ ∧ (D.Paid w → D.Paid (Y.exec c op w).1)
      ∧ (D.Due (Y.exec c op w).1 → D.Due w) ∧ K (v.push ⟨op, w, (Y.exec c op w).1⟩))
    (howes : ∀ v p, K v → p.Calls A B → ¬ D.Owes r v p) (hv : K v) :
    P.Honest D r v p := by
  induction p generalizing v with
  | ret a => exact trivial
  | raise e => exact trivial
  | call op k ih =>
    intro w c hw _ hg
    obtain ⟨ht, hpaid, hdue, hK⟩ := hA v w c op hv hp.1 hw hg
    refine ⟨ht, fun h => .inl (hpaid (h.resolve_right (howes v _ hv hp))),
      fun h => .inl (hdue h), ih _ (hp.2 _) hK⟩

/-- **A part that owes nothing and takes nothing away**, and what comes after it is honest. -/
theorem honest_bind_of_calls {α : Type} {A : S.Op → Prop} {B : α → Prop}
    {K : View S Y.World → Prop} {p : Prog S α} {f : α → Prog S Y.Ans} (hp : p.Calls A B)
    (hA : ∀ v w c op, K v → A op → P.Inv w → P.Guard r v c op w = true →
      P.Takes r v ⟨op, w, (Y.exec c op w).1⟩ ∧ (D.Paid w → D.Paid (Y.exec c op w).1)
      ∧ (D.Due (Y.exec c op w).1 → D.Due w) ∧ K (v.push ⟨op, w, (Y.exec c op w).1⟩))
    (howes : ∀ v op k, K v → A op → ¬ D.Owes r v (.call op k))
    (hf : ∀ v a, K v → B a → P.Honest D r v (f a)) (hv : K v) : P.Honest D r v (p.bind f) := by
  induction p generalizing v with
  | ret a => exact hf v a hv hp
  | raise e => exact trivial
  | call op k ih =>
    intro w c hw _ hg
    obtain ⟨ht, hpaid, hdue, hK⟩ := hA v w c op hv hp.1 hw hg
    exact ⟨ht, fun h => .inl (hpaid (h.resolve_right (howes v _ _ hv hp.1))),
      fun h => .inl (hdue h), ih _ (hp.2 _) hK⟩

variable (P D)

/-- **Every request is honest**, nothing falls due or is lost without one, and a run
that meets the condition ends programs only when the debt is paid. -/
structure Solvent (cond : Y.Pool → Y.Action → Bool) : Prop where
  /-- The condition is the protocol's, at least. -/
  guarded : ∀ p a, cond p a = true → P.cond p a = true
  /-- The environment keeps the protocol, and what is paid; nothing falls due. -/
  env : ∀ e w, P.Inv w → P.Inv (Y.env e w) ∧ P.Evolves w (Y.env e w)
    ∧ (D.Paid w → D.Paid (Y.env e w)) ∧ (D.Due (Y.env e w) → D.Due w)
  /-- Each request's program is honest from its start. -/
  entry : ∀ r w, P.Inv w → P.Honest D r ⟨w, []⟩ (Y.prog r)
  /-- Programs are ended only when the debt is paid. -/
  ends : ∀ p e, cond p (.env e) = true → Y.kills e = true → D.Covered p → D.Paid p.world

/-- A pool in which the protocol is kept and every program is honest. -/
structure PoolHonest (w₀ : Y.World) (p : Y.Pool) : Prop
    extends P.PoolOk (fun _ _ _ => True) w₀ p where
  honest : ∀ t ∈ p.threads, P.Honest D t.req t.view t.prog

variable {P D} {cond : Y.Pool → Y.Action → Bool} {w₀ : Y.World} {p : Y.Pool} {a : Y.Action}

theorem Solvent.sound (hS : P.Solvent D cond) : P.Sound (fun _ _ _ => True) where
  env e w hw := ⟨(hS.env e w hw).1, (hS.env e w hw).2.1⟩
  entry r w hw := (hS.entry r w hw).ok

namespace PoolHonest

theorem init (h₀ : P.Inv w₀) : P.PoolHonest D w₀ (Sys.Pool.init w₀) :=
  ⟨PoolOk.init h₀, fun _ ht => absurd ht List.not_mem_nil⟩

/-- One action keeps the programs honest. -/
theorem act (hS : P.Solvent D cond) (h : P.PoolHonest D w₀ p) (ha : cond p a = true) :
    P.PoolHonest D w₀ (p.act a) := by
  have hok := h.toPoolOk.act hS.sound (hS.guarded p a ha)
  refine ⟨hok, ?_⟩
  cases a with
  | arrive r =>
    show ∀ t ∈ Sys.Pool.threads (if Y.external r then _ else p), _
    split
    · intro t ht
      rcases List.mem_append.mp ht with ht | ht
      · exact h.honest t ht
      · obtain rfl := List.mem_singleton.mp ht
        exact hS.entry r p.world h.inv
    · exact h.honest
  | step i c =>
    have hinv : P.Inv (p.step i c).world := hok.inv
    show ∀ t ∈ (p.step i c).threads, _
    rcases p.step_cases i c with hs | ⟨t, op, k, ht, hk, hs⟩
    · rw [hs]
      exact h.honest
    · rw [hs] at hinv ⊢
      have htm := List.mem_of_getElem? ht
      have hhonest := h.honest t htm
      rw [hk] at hhonest
      have hg := P.cond_step ht hk (hS.guarded p _ ha)
      obtain ⟨_, _, _, hrest⟩ := hhonest p.world c h.inv (h.since t htm) hg
      intro t' ht'
      rcases List.mem_append.mp ht' with ht' | ht'
      · rcases List.mem_or_eq_of_mem_set ht' with ht' | rfl
        · exact h.honest t' ht'
        · exact hrest
      · obtain ⟨j, _, rfl⟩ := List.mem_map.mp ht'
        exact hS.entry j _ hinv
  | env e =>
    show ∀ t ∈ (if Y.kills e then [] else p.threads), _
    split
    · exact fun t ht => absurd ht List.not_mem_nil
    · exact h.honest

/-- A debt passed on in a step is covered after it. -/
theorem covered_of_passed {i : ℕ} {t : Y.Thread} (ht : p.threads[i]? = some t) {op : S.Op}
    {w : Y.World} {v : View S Y.World} {rest : Prog S Y.Ans} (h : D.Passed t.req v op w rest) :
    D.Covered ⟨w, p.threads.set i ⟨t.req, v, rest⟩
      ++ (Y.spawns op).map (fun j => Sys.start j w)⟩ := by
  rcases h with h | h | ⟨j, hj, h⟩
  · exact .inl h
  · exact .inr ⟨⟨t.req, v, rest⟩, List.mem_append_left _
      (List.mem_set (List.getElem?_eq_some_iff.mp ht).1 _), h⟩
  · exact .inr ⟨Sys.start j w, List.mem_append_right _ (List.mem_map_of_mem hj), h⟩

/-- **One action keeps the debt covered**; and a debt that falls due is covered when
the one that was due before is. -/
theorem covered_act (hS : P.Solvent D cond) (h : P.PoolHonest D w₀ p) (ha : cond p a = true) :
    (D.Covered p → D.Covered (p.act a))
      ∧ (D.Due (p.act a).world → D.Due p.world ∨ D.Covered (p.act a)) := by
  cases a with
  | arrive r =>
    show (D.Covered p → D.Covered (if Y.external r then _ else p))
      ∧ (D.Due (if Y.external r then _ else p : Y.Pool).world → _)
    split
    · refine ⟨fun hc => ?_, fun hd => .inl hd⟩
      rcases hc with hc | ⟨t, ht, hc⟩
      · exact .inl hc
      · exact .inr ⟨t, List.mem_append_left _ ht, hc⟩
    · exact ⟨fun hc => hc, fun hd => .inl hd⟩
  | step i c =>
    show (D.Covered p → D.Covered (p.step i c)) ∧ (D.Due (p.step i c).world →
      D.Due p.world ∨ D.Covered (p.step i c))
    rcases p.step_cases i c with hs | ⟨t, op, k, ht, hk, hs⟩
    · rw [hs]
      exact ⟨fun hc => hc, fun hd => .inl hd⟩
    · have htm := List.mem_of_getElem? ht
      have hhonest := h.honest t htm
      rw [hk] at hhonest
      have hg := P.cond_step ht hk (hS.guarded p _ ha)
      obtain ⟨_, hpass, hdue, _⟩ := hhonest p.world c h.inv (h.since t htm) hg
      rw [hs]
      refine ⟨fun hc => ?_, fun hd => (hdue hd).imp_right (covered_of_passed ht)⟩
      rcases hc with hc | ⟨t', ht', hc⟩
      · exact covered_of_passed ht (hpass (.inl hc))
      · -- the debtor is the program that moved, or another
        obtain ⟨j, hj⟩ := List.mem_iff_getElem?.mp ht'
        by_cases hij : i = j
        · subst hij
          rw [ht] at hj
          cases hj
          rw [hk] at hc
          exact covered_of_passed ht (hpass (.inr hc))
        · refine .inr ⟨t', List.mem_append_left _ ?_, hc⟩
          refine List.mem_iff_getElem?.mpr ⟨j, ?_⟩
          rw [List.getElem?_set, if_neg hij]
          exact hj
  | env e =>
    obtain ⟨_, _, hpaid, hdue⟩ := hS.env e p.world h.inv
    refine ⟨fun hc => ?_, fun hd => .inl (hdue hd)⟩
    show D.Covered ⟨Y.env e p.world, if Y.kills e then [] else p.threads⟩
    split
    · next hk => exact .inl (hpaid (hS.ends p e ha hk hc))
    · rcases hc with hc | hc
      · exact .inl (hpaid hc)
      · exact .inr hc

end PoolHonest

/-- **What is due is covered**, in every run that meets the condition and begins with
what is due being paid. -/
theorem Solvent.covered_of_due (hS : P.Solvent D cond) (h₀ : P.Inv w₀)
    (hpaid : D.Due w₀ → D.Paid w₀) {acts : List Y.Action}
    (hm : (Sys.Pool.init w₀).Meets cond acts = true) :
    P.PoolHonest D w₀ ((Sys.Pool.init w₀).run acts)
      ∧ (D.Due ((Sys.Pool.init w₀).run acts).world → D.Covered ((Sys.Pool.init w₀).run acts)) :=
  Sys.Pool.run_induction (fun p => P.PoolHonest D w₀ p ∧ (D.Due p.world → D.Covered p))
    (fun _ _ hp ha => ⟨hp.1.act hS ha, fun hd =>
      ((hp.1.covered_act hS ha).2 hd).elim
        (fun hd => (hp.1.covered_act hS ha).1 (hp.2 hd)) (fun hc => hc)⟩)
    ⟨PoolHonest.init h₀, fun hd => .inl (hpaid hd)⟩ hm

/-- **What is covered stays covered.** -/
theorem PoolHonest.covered_run (hS : P.Solvent D cond) (h : P.PoolHonest D w₀ p)
    (hc : D.Covered p) {acts : List Y.Action} (hm : p.Meets cond acts = true) :
    D.Covered (p.run acts) :=
  (Sys.Pool.run_induction (fun p => P.PoolHonest D w₀ p ∧ D.Covered p)
    (fun _ _ hp ha => ⟨hp.1.act hS ha, (hp.1.covered_act hS ha).1 hp.2⟩) ⟨h, hc⟩ hm).2

/-- **What was once due is covered from then on.** -/
theorem Solvent.covered (hS : P.Solvent D cond) (h₀ : P.Inv w₀) (hpaid : D.Due w₀ → D.Paid w₀)
    {pre post : List Y.Action} (hm : (Sys.Pool.init w₀).Meets cond (pre ++ post) = true)
    (hdue : D.Due ((Sys.Pool.init w₀).run pre).world) :
    D.Covered ((Sys.Pool.init w₀).run (pre ++ post)) := by
  obtain ⟨hpre, hpost⟩ := Sys.Pool.meets_append.mp hm
  obtain ⟨hhonest, hcovered⟩ := hS.covered_of_due h₀ hpaid hpre
  rw [Sys.Pool.run_append]
  exact hhonest.covered_run hS (hcovered hdue) hpost

end Protocol
