import Mathlib.Algebra.GroupWithZero.Nat
import Mathlib.Algebra.Order.BigOperators.Group.List
import Masadan.Rely

/-!
# What there is only so much of

Some things are to be made at most once: a ticket, a payment, a seat. No invariant of
the world says so, when the right to make one passes from the world to a program, and
from a program to one it starts, before the thing is made.

A `Token` counts the right wherever it is: `stock` in the world, where the things made
count too, and `holds` in the hands of a program. A program is `Frugal` when none of
its steps makes more of it than there was, between the world, itself and the programs it
starts. Then the total never grows, in any run (`Thrifty.run`). Programs that are ended
take what they hold with them.
-/

universe u

variable {S : Sig.{u}}

/-- **A token**: how many are in the world, and how many a program holds. -/
structure Token (Y : Sys S) where
  /-- How many are in the world. -/
  stock : Y.World → ℕ
  /-- How many a program holds, in view of what it has seen and what is left of it. -/
  holds : Y.Req → View S Y.World → Prog S Y.Ans → ℕ

variable {Y : Sys S}

namespace Token

variable (K : Token Y)

/-- What programs hold together. -/
def held (ts : List Y.Thread) : ℕ := (ts.map (fun t => K.holds t.req t.view t.prog)).sum

/-- How many there are, in the world and in the hands of programs. -/
def total (p : Y.Pool) : ℕ := K.stock p.world + K.held p.threads

variable {K}

@[simp] theorem held_nil : K.held [] = 0 := rfl

theorem held_append (ts ts' : List Y.Thread) : K.held (ts ++ ts') = K.held ts + K.held ts' := by
  rw [held, List.map_append, List.sum_append]
  rfl

/-- One of the programs holds no more than all. -/
theorem holds_le_held {ts : List Y.Thread} {t : Y.Thread} (ht : t ∈ ts) :
    K.holds t.req t.view t.prog ≤ K.held ts := by
  induction ts with
  | nil => exact absurd ht List.not_mem_nil
  | cons t' ts ih =>
    show _ ≤ K.holds t'.req t'.view t'.prog + K.held ts
    rcases List.mem_cons.mp ht with rfl | ht
    · exact Nat.le_add_right _ _
    · exact (ih ht).trans (Nat.le_add_left _ _)

/-- Some of the programs hold no more than all. -/
theorem held_le_of_sublist {ts ts' : List Y.Thread} (h : ts.Sublist ts') :
    K.held ts ≤ K.held ts' := by
  induction h with
  | slnil => exact le_refl _
  | cons t _ ih => exact ih.trans (Nat.le_add_left _ _)
  | cons_cons t _ ih => exact Nat.add_le_add_left ih _

/-- Replacing a program takes away what it held, and adds what is held now. -/
theorem held_set {ts : List Y.Thread} {i : ℕ} {t : Y.Thread} (ht : ts[i]? = some t)
    (t' : Y.Thread) :
    K.held (ts.set i t') + K.holds t.req t.view t.prog
      = K.held ts + K.holds t'.req t'.view t'.prog := by
  induction ts generalizing i with
  | nil => cases ht
  | cons a as ih =>
    cases i with
    | zero =>
      cases ht
      show (K.holds t'.req t'.view t'.prog + K.held as) + K.holds t.req t.view t.prog
        = (K.holds t.req t.view t.prog + K.held as) + K.holds t'.req t'.view t'.prog
      omega
    | succ i =>
      have hrest := ih (i := i) ht
      show (K.holds a.req a.view a.prog + K.held (as.set i t')) + K.holds t.req t.view t.prog
        = (K.holds a.req a.view a.prog + K.held as) + K.holds t'.req t'.view t'.prog
      omega

end Token

namespace Protocol

variable (P : Protocol Y) (K : Token Y)

/-- **The program keeps the protocol and makes no tokens.** -/
def Frugal (r : Y.Req) : View S Y.World → Prog S Y.Ans → Prop
  | _, .ret _ => True
  | _, .raise _ => True
  | v, .call op k => ∀ w c, P.Inv w → P.Rely v.since w → P.Guard r v c op w = true →
      P.Takes r v ⟨op, w, (Y.exec c op w).1⟩
      ∧ K.stock (Y.exec c op w).1
          + K.holds r (v.push ⟨op, w, (Y.exec c op w).1⟩) (k (Y.exec c op w).2)
          + K.held ((Y.spawns op).map (fun j => Sys.start j (Y.exec c op w).1))
        ≤ K.stock w + K.holds r v (.call op k)
      ∧ Frugal r (v.push ⟨op, w, (Y.exec c op w).1⟩) (k (Y.exec c op w).2)

/-- **Every request is frugal**, and none comes with tokens of its own. -/
structure Thrifty : Prop where
  /-- The environment keeps the protocol and makes no tokens. -/
  env : ∀ e w, P.Inv w → P.Inv (Y.env e w) ∧ P.Evolves w (Y.env e w)
    ∧ K.stock (Y.env e w) ≤ K.stock w
  /-- Each request's program is frugal from its start. -/
  entry : ∀ r w, P.Inv w → P.Frugal K r ⟨w, []⟩ (Y.prog r)
  /-- What arrives holds nothing. -/
  empty : ∀ r w, Y.external r = true → K.holds r ⟨w, []⟩ (Y.prog r) = 0

variable {P K} {w₀ : Y.World} {p : Y.Pool} {a : Y.Action}

/-- A frugal program keeps the protocol. -/
theorem Frugal.ok {r : Y.Req} {v : View S Y.World} {p : Prog S Y.Ans} (h : P.Frugal K r v p) :
    P.Ok r (fun _ _ => True) v p := by
  induction p generalizing v with
  | ret a => exact trivial
  | raise e => exact trivial
  | call op k ih =>
    intro w c hw hv hg
    obtain ⟨ht, _, hrest⟩ := h w c hw hv hg
    exact ⟨ht, ih _ hrest⟩

/-- **A program that holds nothing and makes nothing is frugal**, given something `M` of
what the program has seen that its own calls keep. -/
theorem frugal_of_calls {A : S.Op → Prop} {B : Y.Ans → Prop} {M : View S Y.World → Prop}
    {r : Y.Req} {v : View S Y.World} {p : Prog S Y.Ans} (hp : p.Calls A B)
    (hA : ∀ v w c op, M v → A op → P.Inv w → P.Guard r v c op w = true →
      P.Takes r v ⟨op, w, (Y.exec c op w).1⟩ ∧ K.stock (Y.exec c op w).1 ≤ K.stock w
      ∧ Y.spawns op = [] ∧ M (v.push ⟨op, w, (Y.exec c op w).1⟩))
    (hholds : ∀ v p, M v → p.Calls A B → K.holds r v p = 0) (hv : M v) : P.Frugal K r v p := by
  induction p generalizing v with
  | ret a => exact trivial
  | raise e => exact trivial
  | call op k ih =>
    intro w c hw _ hg
    obtain ⟨ht, hle, hspawns, hM⟩ := hA v w c op hv hp.1 hw hg
    refine ⟨ht, ?_, ih _ (hp.2 _) hM⟩
    rw [hholds _ _ hM (hp.2 _), hspawns]
    exact Nat.le_add_right_of_le hle

theorem Thrifty.sound (hS : P.Thrifty K) : P.Sound (fun _ _ _ => True) where
  env e w hw := ⟨(hS.env e w hw).1, (hS.env e w hw).2.1⟩
  entry r w hw := (hS.entry r w hw).ok

variable (P K) in
/-- A pool in which the protocol is kept and every program is frugal. -/
structure PoolFrugal (w₀ : Y.World) (p : Y.Pool) : Prop
    extends P.PoolOk (fun _ _ _ => True) w₀ p where
  frugal : ∀ t ∈ p.threads, P.Frugal K t.req t.view t.prog

/-- **One action keeps the programs frugal and the total from growing.** -/
theorem PoolFrugal.act (hS : P.Thrifty K) (h : P.PoolFrugal K w₀ p) (ha : P.cond p a = true) :
    P.PoolFrugal K w₀ (p.act a) ∧ K.total (p.act a) ≤ K.total p := by
  have hok := h.toPoolOk.act hS.sound ha
  cases a with
  | arrive r =>
    by_cases hr : Y.external r = true
    · have hact : p.act (.arrive r) = ⟨p.world, p.threads ++ [Sys.start r p.world]⟩ := if_pos hr
      rw [hact] at hok ⊢
      refine ⟨⟨hok, fun t ht => ?_⟩, ?_⟩
      · rcases List.mem_append.mp ht with ht | ht
        · exact h.frugal t ht
        · obtain rfl := List.mem_singleton.mp ht
          exact hS.entry r p.world h.inv
      · rw [Token.total, Token.total, Token.held_append]
        have hempty : K.held [Sys.start r p.world] = 0 := by
          show K.holds r ⟨p.world, []⟩ (Y.prog r) + 0 = 0
          rw [hS.empty r p.world hr]
        rw [hempty, Nat.add_zero]
    · have hact : p.act (.arrive r) = p := if_neg hr
      rw [hact]
      exact ⟨h, le_refl _⟩
  | step i c =>
    replace hok : P.PoolOk (fun _ _ _ => True) w₀ (p.step i c) := hok
    show P.PoolFrugal K w₀ (p.step i c) ∧ K.total (p.step i c) ≤ K.total p
    rcases p.step_cases i c with hs | ⟨t, op, k, ht, hk, hs⟩
    · rw [hs]
      exact ⟨h, le_refl _⟩
    · have htm := List.mem_of_getElem? ht
      have hfrugal := h.frugal t htm
      rw [hk] at hfrugal
      obtain ⟨_, hle, hrest⟩ :=
        hfrugal p.world c h.inv (h.since t htm) (P.cond_step ht hk ha)
      rw [hs] at hok ⊢
      have hinv := hok.inv
      refine ⟨⟨hok, fun t' ht' => ?_⟩, ?_⟩
      · rcases List.mem_append.mp ht' with ht' | ht'
        · rcases List.mem_or_eq_of_mem_set ht' with ht' | rfl
          · exact h.frugal t' ht'
          · exact hrest
        · obtain ⟨j, _, rfl⟩ := List.mem_map.mp ht'
          exact hS.entry j _ hinv
      · have hset := Token.held_set (K := K) ht ⟨t.req,
          t.view.push ⟨op, p.world, (Y.exec c op p.world).1⟩, k (Y.exec c op p.world).2⟩
        rw [hk] at hset
        rw [Token.total, Token.total, Token.held_append]
        dsimp only at hset ⊢
        omega
  | env e =>
    obtain ⟨_, _, hle⟩ := hS.env e p.world h.inv
    by_cases he : Y.kills e = true
    · have hact : p.act (.env e) = ⟨Y.env e p.world, []⟩ := by
        show (⟨Y.env e p.world, if Y.kills e then [] else p.threads⟩ : Y.Pool) = _
        rw [if_pos he]
      rw [hact] at hok ⊢
      exact ⟨⟨hok, fun t ht => absurd ht List.not_mem_nil⟩,
        hle.trans (Nat.le_add_right _ _)⟩
    · have hact : p.act (.env e) = ⟨Y.env e p.world, p.threads⟩ := by
        show (⟨Y.env e p.world, if Y.kills e then [] else p.threads⟩ : Y.Pool) = _
        rw [if_neg he]
      rw [hact] at hok ⊢
      exact ⟨⟨hok, h.frugal⟩, Nat.add_le_add_right hle _⟩

/-- **The total never grows**: what a run leads to, in the world and in the hands of
programs, was in the world at the start. -/
theorem Thrifty.run (hS : P.Thrifty K) (h₀ : P.Inv w₀) {acts : List Y.Action}
    (hm : (Sys.Pool.init w₀).Meets P.cond acts = true) :
    K.total ((Sys.Pool.init w₀).run acts) ≤ K.stock w₀ := by
  refine (Sys.Pool.run_induction
    (fun p => P.PoolFrugal K w₀ p ∧ K.total p ≤ K.stock w₀) (fun p a hp ha => ?_)
    ⟨⟨PoolOk.init h₀, fun t ht => absurd ht List.not_mem_nil⟩, le_refl _⟩ hm).2
  obtain ⟨hfrugal, hle⟩ := hp.1.act hS ha
  exact ⟨hfrugal, hle.trans hp.2⟩

end Protocol
