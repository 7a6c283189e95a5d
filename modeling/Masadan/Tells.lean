import Masadan.Pool

/-!
# What is changed is told

A program that changes what others watch has to say so before it is through, for nobody
looks again unasked. Whether it does is a matter of its text: `Telling.Tells` goes through
the calls of a program, along every answer they can get, and keeps account of what has been
changed and not been told of; when the program has returned or thrown, nothing may be left
of it (`Telling.Settled`).

`Telling.Of.told_run` is what this comes to in a run, whoever else takes turns: what a program
owes it tells, unless it is ended from outside.

Who is told will ask, and `Sys.Finds` is about that: what a program finds when all the worlds
it asks are of one kind.
-/

universe u

variable {S : Sig.{u}} {κ : Type}

/-- **What calls change and what they tell of**, by key. -/
structure Telling (S : Sig.{u}) (κ : Type) where
  /-- The call can be answered so. -/
  Can : (op : S.Op) → Except S.Err (S.Res op) → Prop
  /-- A call that is answered so may have changed what is under the key. -/
  Changes : (op : S.Op) → Except S.Err (S.Res op) → κ → Prop
  /-- The call tells of the key. -/
  Says : S.Op → κ → Prop

namespace Telling

variable (T : Telling S κ) {α β : Type}

/-- What is owed after a call: what it has changed, and what was owed and it does not tell
of. -/
def after (op : S.Op) (x : Except S.Err (S.Res op)) (owed : κ → Prop) (k : κ) : Prop :=
  T.Changes op x k ∨ (owed k ∧ ¬ T.Says op k)

/-- **The program, owing so much, ends as `Q` allows** of what it owes then. -/
def Tells (Q : (κ → Prop) → Except S.Err α → Prop) : (κ → Prop) → Prog S α → Prop
  | owed, .ret a => Q owed (.ok a)
  | owed, .raise e => Q owed (.error e)
  | owed, .call op f => ∀ x, T.Can op x → Tells Q (T.after op x owed) (f x)

/-- Nothing is owed. -/
def Settled (owed : κ → Prop) (_ : Except S.Err α) : Prop := ∀ k, ¬ owed k

variable {T} {Q : (κ → Prop) → Except S.Err α → Prop} {owed : κ → Prop}

theorem tells_mono {Q' : (κ → Prop) → Except S.Err α → Prop} {p : Prog S α}
    (h : T.Tells Q owed p) (hQ : ∀ owed x, Q owed x → Q' owed x) : T.Tells Q' owed p := by
  induction p generalizing owed with
  | ret a => exact hQ _ _ h
  | raise e => exact hQ _ _ h
  | call op f ih => exact fun x hx => ih x (h x hx)

/-- A sequence tells when its first part does, and its second what is left. -/
theorem tells_bind {Q : (κ → Prop) → Except S.Err β → Prop} {p : Prog S α} {f : α → Prog S β}
    (h : T.Tells (fun owed x => match x with
      | .ok a => T.Tells Q owed (f a)
      | .error e => Q owed (.error e)) owed p) : T.Tells Q owed (p.bind f) := by
  induction p generalizing owed with
  | ret a => exact h
  | raise e => exact h
  | call op k ih => exact fun x hx => ih x (h x hx)

/-- `try`. -/
theorem tells_attempt {Q : (κ → Prop) → Except S.Err (Except S.Err α) → Prop} {p : Prog S α}
    (h : T.Tells (fun owed x => Q owed (.ok x)) owed p) : T.Tells Q owed p.attempt := by
  induction p generalizing owed with
  | ret a => exact h
  | raise e => exact h
  | call op k ih => exact fun x hx => ih x (h x hx)

/-- **A part that changes nothing** comes to owe nothing. -/
theorem tells_calls {A : S.Op → Prop} {B : α → Prop} {p : Prog S α} (hp : p.Calls A B)
    (hA : ∀ op x k, A op → ¬ T.Changes op x k) :
    T.Tells (fun owed' x => (∀ k, owed' k → owed k) ∧ ∀ a, x = .ok a → B a) owed p := by
  induction p generalizing owed with
  | ret a =>
    refine ⟨fun _ h => h, ?_⟩
    rintro _ ⟨⟩
    exact hp
  | raise e => exact ⟨fun _ h => h, fun _ h => by cases h⟩
  | call op f ih =>
    intro x _
    refine tells_mono (ih x (hp.2 x)) (fun owed' y hy => ⟨fun k hk => ?_, hy.2⟩)
    rcases hy.1 k hk with hchanges | ⟨howed, _⟩
    · exact absurd hchanges (hA op x k hp.1)
    · exact howed

/-- A program that changes nothing and owes nothing. -/
theorem settled_of_calls {A : S.Op → Prop} {B : α → Prop} {p : Prog S α} (hp : p.Calls A B)
    (hA : ∀ op x k, A op → ¬ T.Changes op x k) (howed : ∀ k, ¬ owed k) :
    T.Tells Settled owed p :=
  tells_mono (tells_calls hp hA) (fun _ _ h k hk => howed k (h.1 k hk))

/-- Such a part, and then the rest. -/
theorem tells_calls_bind {A : S.Op → Prop} {B : α → Prop} {p : Prog S α} {f : α → Prog S β}
    (hp : p.Calls A B) (hA : ∀ op x k, A op → ¬ T.Changes op x k) (howed : ∀ k, ¬ owed k)
    (hf : ∀ owed' a, (∀ k, ¬ owed' k) → B a → T.Tells Settled owed' (f a)) :
    T.Tells Settled owed (p.bind f) := by
  refine tells_bind (tells_mono (tells_calls hp hA) (fun owed' x hx => ?_))
  have hnone : ∀ k, ¬ owed' k := fun k hk => howed k (hx.1 k hk)
  cases x with
  | ok a => exact hf owed' a hnone (hx.2 a rfl)
  | error e => exact hnone

end Telling

/-! ## Runs -/

namespace Sys.Pool

variable {Y : Sys S}

/-- The program that moved is where it was. -/
theorem thread_step {p : Y.Pool} {i : ℕ} {t : Y.Thread} (ht : p.threads[i]? = some t)
    {c : Y.Choice} {op : S.Op} {k : Except S.Err (S.Res op) → Prog S Y.Ans}
    (hk : t.prog = .call op k) : (p.step i c).threads[i]? = some
      ⟨t.req, t.view.push ⟨op, p.world, (Y.exec c op p.world).1⟩, k (Y.exec c op p.world).2⟩ := by
  have hlt := (List.getElem?_eq_some_iff.mp ht).1
  rw [step_of_call ht hk]
  show (p.threads.set i _ ++ _)[i]? = _
  rw [List.getElem?_append_left (by rw [List.length_set]; exact hlt), List.getElem?_set, if_pos rfl,
    if_pos hlt]

/-- A program stays where it is, or it is the one whose call is answered. -/
theorem thread_act {p : Y.Pool} {i : ℕ} {t : Y.Thread} (ht : p.threads[i]? = some t)
    {a : Y.Action} (hkills : ∀ e, a = .env e → Y.kills e = false) :
    (p.act a).threads[i]? = some t
      ∨ ∃ c op k, a = .step i c ∧ t.prog = .call op k ∧ (p.act a).threads[i]? = some
        ⟨t.req, t.view.push ⟨op, p.world, (Y.exec c op p.world).1⟩, k (Y.exec c op p.world).2⟩ := by
  have hlt := (List.getElem?_eq_some_iff.mp ht).1
  cases a with
  | arrive r =>
    left
    show (Sys.Pool.threads (if Y.external r then _ else p))[i]? = some t
    split
    · exact (List.getElem?_append_left hlt).trans ht
    · exact ht
  | step j c =>
    show (p.step j c).threads[i]? = some t ∨ _
    rcases p.step_cases j c with hs | ⟨t', op, k, ht', hk, hs⟩
    · rw [hs]
      exact .inl ht
    · by_cases hij : j = i
      · subst hij
        cases ht.symm.trans ht'
        exact .inr ⟨c, op, k, rfl, hk, thread_step ht hk⟩
      · left
        rw [hs]
        show (p.threads.set j _ ++ _)[i]? = some t
        rw [List.getElem?_append_left (by rw [List.length_set]; exact hlt), List.getElem?_set,
          if_neg hij]
        exact ht
  | env e =>
    left
    show (if Y.kills e then [] else p.threads)[i]? = some t
    rw [hkills e rfl]
    exact ht

end Sys.Pool

namespace Telling

variable {T : Telling S κ} {Y : Sys S}

/-- **The programs of a system tell.** -/
structure Of (T : Telling S κ) (Y : Sys S) : Prop where
  /-- The answers a call gets are among those it can get. -/
  can : ∀ c op w, T.Can op (Y.exec c op w).2
  /-- Each program tells of whatever it has changed. -/
  entry : ∀ r, T.Tells Settled (fun _ => False) (Y.prog r)

/-- The `i`-th program tells of the key in the action. -/
def SaysAt (T : Telling S κ) (p : Y.Pool) (i : ℕ) (a : Y.Action) (k : κ) : Prop :=
  ∃ c t op f, a = .step i c ∧ p.threads[i]? = some t ∧ t.prog = .call op f ∧ T.Says op k

/-- In every pool a run leads to, each program will tell of what it owes. -/
theorem Of.run (h : T.Of Y) (w₀ : Y.World) (acts : List Y.Action) :
    ∀ t ∈ (Sys.Pool.run (Sys.Pool.init w₀) acts : Y.Pool).threads,
      ∃ owed, T.Tells Settled owed t.prog := by
  have hstart : ∀ r w, ∃ owed, T.Tells Settled owed (Sys.start r w : Y.Thread).prog :=
    fun r w => ⟨_, h.entry r⟩
  refine Sys.Pool.run_induction
    (fun p => ∀ t ∈ p.threads, ∃ owed, T.Tells Settled owed t.prog) (fun p a hp _ => ?_)
    (fun _ ht => absurd ht List.not_mem_nil) (Sys.Pool.meets_true _ _)
  cases a with
  | arrive r =>
    show ∀ t ∈ Sys.Pool.threads (if Y.external r then _ else p), _
    split
    · intro t ht
      rcases List.mem_append.mp ht with ht | ht
      · exact hp t ht
      · obtain rfl := List.mem_singleton.mp ht
        exact hstart r _
    · exact hp
  | step i c =>
    show ∀ t ∈ (p.step i c).threads, _
    rcases p.step_cases i c with hs | ⟨t, op, k, ht, hk, hs⟩
    · rw [hs]
      exact hp
    · obtain ⟨owed, howed⟩ := hp t (List.mem_of_getElem? ht)
      rw [hk] at howed
      rw [hs]
      intro t' ht'
      rcases List.mem_append.mp ht' with ht' | ht'
      · rcases List.mem_or_eq_of_mem_set ht' with ht' | rfl
        · exact hp t' ht'
        · exact ⟨_, howed _ (h.can c op p.world)⟩
      · obtain ⟨j, _, rfl⟩ := List.mem_map.mp ht'
        exact hstart j _
  | env e =>
    show ∀ t ∈ (if Y.kills e then [] else p.threads), _
    split
    · exact fun t ht => absurd ht List.not_mem_nil
    · exact hp

/-- **What a program owes it tells**, by the time it is through, unless it is ended. -/
theorem Of.told_run (h : T.Of Y) {p : Y.Pool} {acts : List Y.Action} {i : ℕ} {t : Y.Thread}
    {owed : κ → Prop} {k : κ} (ht : p.threads[i]? = some t)
    (htells : T.Tells Settled owed t.prog) (hk : owed k)
    (hkills : ∀ e, Sys.Action.env e ∈ acts → Y.kills e = false)
    (hdone : ∀ t', (p.run acts).threads[i]? = some t' → t'.outcome ≠ none) :
    ∃ pre a post, acts = pre ++ a :: post ∧ T.SaysAt (p.run pre) i a k := by
  induction acts generalizing p t owed with
  | nil =>
    -- a program that is through owes nothing
    have hout := hdone t ht
    unfold Sys.Thread.outcome at hout
    cases hprog : t.prog with
    | ret a =>
      rw [hprog] at htells
      exact absurd hk (htells k)
    | raise e =>
      rw [hprog] at htells
      exact absurd hk (htells k)
    | call op f =>
      rw [hprog] at hout
      exact absurd rfl hout
  | cons a as ih =>
    have hlater : ∀ {t' : Y.Thread} {owed' : κ → Prop}, (p.act a).threads[i]? = some t' →
        T.Tells Settled owed' t'.prog → owed' k →
        ∃ pre b post, a :: as = pre ++ b :: post ∧ T.SaysAt (p.run pre) i b k := by
      intro t' owed' ht' htells' hk'
      obtain ⟨pre, b, post, heq, hsays⟩ := ih ht' htells' hk'
        (fun e he => hkills e (List.mem_cons_of_mem _ he)) hdone
      exact ⟨a :: pre, b, post, congrArg (a :: ·) heq, hsays⟩
    rcases Sys.Pool.thread_act ht (fun e he => hkills e (he ▸ List.mem_cons_self)) with
      hsame | ⟨c, op, f, rfl, hprog, hmoved⟩
    · exact hlater hsame htells hk
    · by_cases hsays : T.Says op k
      · exact ⟨[], _, as, rfl, c, t, op, f, rfl, ht, hprog, hsays⟩
      · rw [hprog] at htells
        exact hlater hmoved (htells _ (h.can c op p.world)) (.inr ⟨hk, hsays⟩)

/-- **What a step has changed its program tells of.** -/
theorem Of.told (h : T.Of Y) {w₀ : Y.World} {pre post : List Y.Action} {i : ℕ} {c : Y.Choice}
    {t : Y.Thread} {op : S.Op} {f : Except S.Err (S.Res op) → Prog S Y.Ans} {k : κ}
    (ht : (Sys.Pool.run (Sys.Pool.init w₀) pre : Y.Pool).threads[i]? = some t)
    (hprog : t.prog = .call op f)
    (hchanges : T.Changes op (Y.exec c op (Sys.Pool.run (Sys.Pool.init w₀) pre : Y.Pool).world).2 k)
    (hkills : ∀ e, Sys.Action.env e ∈ post → Y.kills e = false)
    (hquiet : (Sys.Pool.run (Sys.Pool.init w₀) (pre ++ .step i c :: post) : Y.Pool).Quiet) :
    ∃ mid a rest, post = mid ++ a :: rest
      ∧ T.SaysAt (Sys.Pool.run (Sys.Pool.init w₀) (pre ++ .step i c :: mid) : Y.Pool) i a k := by
  obtain ⟨owed, howed⟩ := h.run w₀ pre t (List.mem_of_getElem? ht)
  rw [hprog] at howed
  have hmoved := Sys.Pool.thread_step (c := c) ht hprog
  obtain ⟨mid, a, rest, heq, hsays⟩ := h.told_run hmoved
    (howed _ (h.can c op _)) (.inl hchanges) hkills (fun t' ht' => by
      refine hquiet t' (List.mem_of_getElem? (i := i) ?_)
      rw [Sys.Pool.run_append]
      exact ht')
  refine ⟨mid, a, rest, heq, ?_⟩
  rw [Sys.Pool.run_append]
  exact hsays

end Telling

/-! ## What is asked -/

namespace Sys

variable (Y : Sys S) {α β : Type} {W : Y.World → Prop}

/-- **Whatever worlds of `W` answer its calls**, the program ends as `Q` allows. -/
def Finds (W : Y.World → Prop) (Q : Except S.Err α → Prop) : Prog S α → Prop
  | .ret a => Q (.ok a)
  | .raise e => Q (.error e)
  | .call op f => ∀ c w, W w → Finds W Q (f (Y.exec c op w).2)

variable {Y}

/-- A program goes on finding what it would, in a world of `W`. -/
theorem Pool.finds_act {Q : Except S.Err Y.Ans → Prop} {p : Y.Pool} {i : ℕ} {t : Y.Thread}
    (ht : p.threads[i]? = some t) (hfinds : Y.Finds W Q t.prog) (hw : W p.world) {a : Y.Action}
    (hkills : ∀ e, a = .env e → Y.kills e = false) :
    ∃ t', (p.act a).threads[i]? = some t' ∧ Y.Finds W Q t'.prog := by
  rcases thread_act ht hkills with hsame | ⟨c, op, k, _, hprog, hmoved⟩
  · exact ⟨t, hsame, hfinds⟩
  · rw [hprog] at hfinds
    exact ⟨_, hmoved, hfinds c p.world hw⟩

/-- What it has found when it is through. -/
theorem Finds.outcome {Q : Except S.Err Y.Ans → Prop} {t : Y.Thread} (h : Y.Finds W Q t.prog)
    {x : Except S.Err Y.Ans} (hx : t.outcome = some x) : Q x := by
  unfold Sys.Thread.outcome at hx
  cases hprog : t.prog with
  | ret a =>
    rw [hprog] at h hx
    cases hx
    exact h
  | raise e =>
    rw [hprog] at h hx
    cases hx
    exact h
  | call op f =>
    rw [hprog] at hx
    cases hx

end Sys
