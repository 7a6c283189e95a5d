import Mathlib.Data.List.Induction
import Masadan.Pool

/-!
# One program in two runs

All a program learns of the world it learns from the answers to its calls. So what it can
give away can be found out by letting it run twice: if the two worlds differ in nothing it
may speak of, each time it makes a call, it has to return the same.

`Sys.Steady` goes through the calls of a program in two runs at once. `R` says which worlds
are alike, one of each run, when a call is made; `K` how the world may have moved since the
last call of the same run. A call then has to be answered alike, unless the program throws
over the answer. `Sys.same_answer` is what this comes to: in two runs, whoever else takes
turns in either, a request is answered the same.
-/

universe u

variable {S : Sig.{u}}

/-- The program has thrown. -/
def Prog.Threw {α : Type} (p : Prog S α) : Prop := ∃ e, p = .raise e

namespace Sys

variable (Y : Sys S) {α β : Type} (R K : Y.World → Y.World → Prop)

/-- **In worlds that are alike the program goes the same way**, and returns what `Q` allows of
the worlds it leaves. -/
def Steady (Q : Y.World → Y.World → α → Prop) : Y.World → Y.World → Prog S α → Prop
  | u, u', .ret a => Q u u' a
  | _, _, .raise _ => True
  | u, u', .call op f => ∀ c c' w w', K u w → K u' w' → R w w' →
      ((Y.exec c op w).2 = (Y.exec c' op w').2
        ∧ Steady Q (Y.exec c op w).1 (Y.exec c' op w').1 (f (Y.exec c op w).2))
      ∨ (f (Y.exec c op w).2).Threw ∨ (f (Y.exec c' op w').2).Threw

/-- **The program has come this far**: born in a world it has made these calls, latest first,
and the world moved between them as `K` allows. -/
def Went (p : Prog S α) (born : Y.World) : List (Event S Y.World) → Prog S α → Prop
  | [], q => q = p
  | e :: es, q => ∃ c f, Went p born es (.call e.op f) ∧ K (View.mk born es).since e.before
      ∧ e.after = (Y.exec c e.op e.before).1 ∧ q = f (Y.exec c e.op e.before).2

variable {Y R K} {Q : Y.World → Y.World → α → Prop} {u u' : Y.World}

/-! ## Rules -/

theorem steady_mono {Q' : Y.World → Y.World → α → Prop} {p : Prog S α}
    (h : Y.Steady R K Q u u' p) (hQ : ∀ u u' a, Q u u' a → Q' u u' a) :
    Y.Steady R K Q' u u' p := by
  induction p generalizing u u' with
  | ret a => exact hQ _ _ _ h
  | raise e => exact trivial
  | call op f ih =>
    intro c c' w w' hw hw' hR
    exact (h c c' w w' hw hw' hR).imp_left (fun hsame => ⟨hsame.1, ih _ hsame.2⟩)

/-- A sequence is steady when its first part is, and its second from what that returned. -/
theorem steady_bind {Q : Y.World → Y.World → β → Prop} {p : Prog S α} {f : α → Prog S β}
    (h : Y.Steady R K (fun u u' a => Y.Steady R K Q u u' (f a)) u u' p) :
    Y.Steady R K Q u u' (p.bind f) := by
  induction p generalizing u u' with
  | ret a => exact h
  | raise e => exact trivial
  | call op k ih =>
    have hthrew : ∀ {q : Prog S α}, q.Threw → (q.bind f).Threw := by
      rintro _ ⟨e, rfl⟩
      exact ⟨e, rfl⟩
    intro c c' w w' hw hw' hR
    exact (h c c' w w' hw hw' hR).imp (fun hsame => ⟨hsame.1, ih _ hsame.2⟩)
      (Or.imp hthrew hthrew)

theorem steady_map {Q : Y.World → Y.World → β → Prop} {p : Prog S α} {f : α → β}
    (h : Y.Steady R K (fun u u' a => Q u u' (f a)) u u' p) : Y.Steady R K Q u u' (f <$> p) :=
  steady_bind h

/-- What is known of what a program returns may be used. -/
theorem steady_calls {A : S.Op → Prop} {B : α → Prop} {p : Prog S α} (hp : p.Calls A B)
    (h : Y.Steady R K Q u u' p) : Y.Steady R K (fun u u' a => Q u u' a ∧ B a) u u' p := by
  induction p generalizing u u' with
  | ret a => exact ⟨h, hp⟩
  | raise e => exact trivial
  | call op f ih =>
    intro c c' w w' hw hw' hR
    exact (h c c' w w' hw hw' hR).imp_left (fun hsame => ⟨hsame.1, ih _ (hp.2 _) hsame.2⟩)

/-- One call, then the rest: only answers that are no errors need be alike. -/
theorem steady_perform {Q : Y.World → Y.World → β → Prop} {op : S.Op} {f : S.Res op → Prog S β}
    (h : ∀ c c' w w' a a', K u w → K u' w' → R w w' → (Y.exec c op w).2 = .ok a →
      (Y.exec c' op w').2 = .ok a' →
      a = a' ∧ Y.Steady R K Q (Y.exec c op w).1 (Y.exec c' op w').1 (f a)) :
    Y.Steady R K Q u u' ((Prog.perform op).bind f) := by
  intro c c' w w' hw hw' hR
  cases hx : (Y.exec c op w).2 with
  | error e => exact .inr (.inl ⟨e, rfl⟩)
  | ok a =>
    cases hx' : (Y.exec c' op w').2 with
    | error e => exact .inr (.inr ⟨e, rfl⟩)
    | ok a' =>
      obtain ⟨rfl, hsteady⟩ := h c c' w w' a a' hw hw' hR hx hx'
      exact .inl ⟨rfl, hsteady⟩

/-! ## Runs -/

/-- **As long as the worlds are alike, the two programs are the same**, or one has thrown. -/
theorem Steady.went {p q q' : Prog S α} {born born' : Y.World}
    (h : Y.Steady R K Q born born' p) {es es' : List (Event S Y.World)}
    (hR : List.Forall₂ (fun e e' => R e.before e'.before) es es')
    (hq : Y.Went K p born es q) (hq' : Y.Went K p born' es' q') :
    (q = q' ∧ Y.Steady R K Q (View.mk born es).since (View.mk born' es').since q)
      ∨ q.Threw ∨ q'.Threw := by
  induction hR generalizing q q' with
  | nil =>
    cases hq
    cases hq'
    exact .inl ⟨rfl, h⟩
  | @cons e e' es es' hhere hrest ih =>
    obtain ⟨c, f, hf, hK, hafter, rfl⟩ := hq
    obtain ⟨c', f', hf', hK', hafter', rfl⟩ := hq'
    rcases ih hf hf' with ⟨hsame, hsteady⟩ | ⟨_, hthrew⟩ | ⟨_, hthrew⟩
    · obtain ⟨op, w, w₁⟩ := e
      obtain ⟨op', w', w₁'⟩ := e'
      cases hsame
      obtain rfl : w₁ = (Y.exec c op w).1 := hafter
      obtain rfl : w₁' = (Y.exec c' op w').1 := hafter'
      rcases hsteady c c' w w' hK hK' hhere with ⟨hanswer, hnext⟩ | hthrew
      · exact .inl ⟨congrArg f hanswer, hnext⟩
      · exact .inr hthrew
    · cases hthrew
    · cases hthrew

/-- **How the world moved along a run**, from any moment to any later one. -/
def Moves (K : Y.World → Y.World → Prop) (w₀ : Y.World) (acts : List Y.Action) : Prop :=
  ∀ pre mid post, acts = pre ++ mid ++ post →
    K (Pool.run (Pool.init w₀) pre : Y.Pool).world
      (Pool.run (Pool.init w₀) (pre ++ mid) : Y.Pool).world

/-- Every program of a run has come to where it is by its calls. -/
theorem went_run {w₀ : Y.World} {acts : List Y.Action} (hK : Y.Moves K w₀ acts) :
    ∀ t ∈ (Pool.run (Pool.init w₀) acts : Y.Pool).threads,
      Y.Went K (Y.prog t.req) t.view.born t.view.past t.prog
        ∧ ∃ pre post, acts = pre ++ post
          ∧ t.view.since = (Pool.run (Pool.init w₀) pre : Y.Pool).world := by
  induction acts using List.reverseRecOn with
  | nil => exact fun t ht => absurd ht List.not_mem_nil
  | append_singleton acts a ih =>
    have ih := ih (fun pre mid post h => hK pre mid (post ++ [a]) (by rw [h, List.append_assoc]))
    have hstays : ∀ t ∈ (Pool.run (Pool.init w₀) acts : Y.Pool).threads,
        Y.Went K (Y.prog t.req) t.view.born t.view.past t.prog
          ∧ ∃ pre post, acts ++ [a] = pre ++ post
            ∧ t.view.since = (Pool.run (Pool.init w₀) pre : Y.Pool).world := by
      intro t ht
      obtain ⟨hwent, pre, post, hacts, hsince⟩ := ih t ht
      exact ⟨hwent, pre, post ++ [a], by rw [hacts, List.append_assoc], hsince⟩
    have hrun : (Pool.run (Pool.init w₀) (acts ++ [a]) : Y.Pool)
        = (Pool.run (Pool.init w₀) acts).act a := Pool.run_append _ _ _
    have hborn : ∀ r w, (∃ pre post, acts ++ [a] = pre ++ post
        ∧ w = (Pool.run (Pool.init w₀) pre : Y.Pool).world) →
        Y.Went K (Y.prog (start r w : Y.Thread).req) (start r w : Y.Thread).view.born
          (start r w : Y.Thread).view.past (start r w : Y.Thread).prog
          ∧ ∃ pre post, acts ++ [a] = pre ++ post
            ∧ (start r w : Y.Thread).view.since = (Pool.run (Pool.init w₀) pre : Y.Pool).world :=
      fun r w hw => ⟨rfl, hw⟩
    cases a with
    | arrive r =>
      rw [hrun]
      show ∀ t ∈ Pool.threads (if Y.external r then _ else _), _
      split
      · intro t ht
        rcases List.mem_append.mp ht with ht | ht
        · exact hstays t ht
        · obtain rfl := List.mem_singleton.mp ht
          exact hborn r _ ⟨acts, _, rfl, rfl⟩
      · exact hstays
    | step i c =>
      have hworld : ((Pool.run (Pool.init w₀) acts).step i c : Y.Pool).world
          = (Pool.run (Pool.init w₀) (acts ++ [.step i c]) : Y.Pool).world := by
        rw [hrun]
        rfl
      rw [hrun]
      show ∀ t ∈ Pool.threads (Pool.step _ i c), _
      rcases Pool.step_cases (Pool.run (Pool.init w₀) acts) i c with hs | ⟨t, op, k, ht, hk, hs⟩
      · rw [hs]
        exact hstays
      · rw [hs] at hworld ⊢
        intro t' ht'
        rcases List.mem_append.mp ht' with ht' | ht'
        · rcases List.mem_or_eq_of_mem_set ht' with ht' | rfl
          · exact hstays t' ht'
          · -- the program that moved
            obtain ⟨hwent, pre, post, hacts, hsince⟩ := ih t (List.mem_of_getElem? ht)
            rw [hk] at hwent
            refine ⟨⟨c, k, hwent, ?_, rfl, rfl⟩, _, [], (List.append_nil _).symm, hworld⟩
            have hmoved := hK pre post [.step i c] (by rw [hacts])
            rw [← hacts, ← hsince] at hmoved
            exact hmoved
        · obtain ⟨j, _, rfl⟩ := List.mem_map.mp ht'
          exact hborn j _ ⟨_, [], (List.append_nil _).symm, hworld⟩
    | env e =>
      rw [hrun]
      show ∀ t ∈ (if Y.kills e then [] else _), _
      split
      · exact fun t ht => absurd ht List.not_mem_nil
      · exact hstays

/-- **A request is answered the same in two runs**, if the worlds were alike at its calls. -/
theorem same_answer {w₀ w₀' : Y.World} {acts acts' : List Y.Action} {t t' : Y.Thread}
    {Q : Y.World → Y.World → Y.Ans → Prop} {a a' : Y.Ans} (hK : Y.Moves K w₀ acts)
    (hK' : Y.Moves K w₀' acts')
    (ht : t ∈ (Pool.run (Pool.init w₀) acts : Y.Pool).threads)
    (ht' : t' ∈ (Pool.run (Pool.init w₀') acts' : Y.Pool).threads) (hreq : t'.req = t.req)
    (hsteady : Y.Steady R K Q t.view.born t'.view.born (Y.prog t.req))
    (hR : List.Forall₂ (fun e e' => R e.before e'.before) t.view.past t'.view.past)
    (ha : t.outcome = some (.ok a)) (ha' : t'.outcome = some (.ok a')) : a = a' := by
  have hdone : ∀ {p : Prog S Y.Ans} {b}, p.outcome = some (.ok b) → p = .ret b := by
    intro p b hb
    cases p with
    | ret c =>
      cases hb
      rfl
    | raise e => cases hb
    | call op f => cases hb
  have hwent := (went_run hK t ht).1
  have hwent' := (went_run hK' t' ht').1
  rw [hdone ha] at hwent
  rw [hreq, hdone ha'] at hwent'
  rcases hsteady.went hR hwent hwent' with ⟨hsame, _⟩ | ⟨_, hthrew⟩ | ⟨_, hthrew⟩
  · cases hsame
    rfl
  · cases hthrew
  · cases hthrew

end Sys
