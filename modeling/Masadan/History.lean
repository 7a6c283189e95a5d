import Mathlib.Data.List.Induction
import Masadan.Rely

/-!
# Where in a run a call was made

A program remembers the calls it has made, and a run is a list of actions. This
module puts the two together: a call in a program's past is the answer to one
action of the run, and the worlds before and after it are those of the pools
around that action (`called`). With it, what happened between two calls is a
part of a list, and can be spoken of as one.

Three facts about such parts are used again and again. A program that was there
is still there, with a longer past (`persists`). Two actions of one run come in
some order (`split_order`). And what is so at one point of a run and no longer
at a later one was ended by one action between them (`exists_leaving`).
-/

universe u

variable {S : Sig.{u}} {Y : Sys S}

/-- **Two places in a list**: they are one, or one comes before the other. -/
theorem split_order {α : Type*} {pre pre' post post' : List α} {a a' : α}
    (h : pre ++ a :: post = pre' ++ a' :: post') :
    (pre = pre' ∧ a = a') ∨ (∃ mid, pre' = pre ++ a :: mid ∧ post = mid ++ a' :: post')
      ∨ ∃ mid, pre = pre' ++ a' :: mid ∧ post' = mid ++ a :: post := by
  rcases List.append_eq_append_iff.mp h with ⟨as, hpre, has⟩ | ⟨as, hpre, has⟩
  · cases as with
    | nil =>
      rw [List.append_nil] at hpre
      rw [List.nil_append] at has
      exact .inl ⟨hpre.symm, (List.cons.inj has).1⟩
    | cons b bs =>
      obtain ⟨rfl, hpost⟩ := List.cons.inj has
      exact .inr (.inl ⟨bs, hpre, hpost⟩)
  · cases as with
    | nil =>
      rw [List.append_nil] at hpre
      rw [List.nil_append] at has
      exact .inl ⟨hpre, (List.cons.inj has).1.symm⟩
    | cons b bs =>
      obtain ⟨rfl, hpost⟩ := List.cons.inj has
      exact .inr (.inr ⟨bs, hpre, hpost⟩)

/-- **What one thing has no other has**, in a list in which it is not repeated. -/
theorem place_unique {α β : Type*} {f : α → Option β} {l : List α} (h : (l.filterMap f).Nodup)
    {i j : ℕ} {a a' : α} {b : β} (ha : l[i]? = some a) (ha' : l[j]? = some a') (hb : f a = some b)
    (hb' : f a' = some b) : i = j := by
  have hpair := List.pairwise_iff_getElem.mp (List.pairwise_filterMap.mp h)
  obtain ⟨hi, rfl⟩ := List.getElem?_eq_some_iff.mp ha
  obtain ⟨hj, rfl⟩ := List.getElem?_eq_some_iff.mp ha'
  by_contra hij
  rcases Nat.lt_or_gt_of_ne hij with hlt | hlt
  · exact hpair i j hi hj hlt b hb b hb' rfl
  · exact hpair j i hj hi hlt b hb' b hb rfl

namespace Sys.Pool

/-- **What was so and is no longer was ended by one action.** -/
theorem exists_leaving {I : Y.Pool → Prop} {p : Y.Pool} {acts : List Y.Action} (h : I p)
    (h' : ¬ I (p.run acts)) :
    ∃ pre a post, acts = pre ++ a :: post ∧ I (p.run pre) ∧ ¬ I (p.run (pre ++ [a])) := by
  induction acts generalizing p with
  | nil => exact absurd h h'
  | cons a as ih =>
    by_cases ha : I (p.act a)
    · obtain ⟨pre, b, post, rfl, hpre, hb⟩ := ih ha h'
      exact ⟨a :: pre, b, post, rfl, hpre, hb⟩
    · exact ⟨[], a, as, rfl, h, ha⟩

/-- One action at the end of a run. -/
theorem run_concat (p : Y.Pool) (as : List Y.Action) (a : Y.Action) :
    p.run (as ++ [a]) = (p.run as).act a := by
  rw [run_append]
  rfl

/-- How many actions of a run are such that `q` holds of them, in the pool they are taken
in. -/
def times (q : Y.Pool → Y.Action → Bool) : Y.Pool → List Y.Action → ℕ
  | _, [] => 0
  | p, a :: as => (if q p a then 1 else 0) + (p.act a).times q as

@[simp] theorem times_nil (q : Y.Pool → Y.Action → Bool) (p : Y.Pool) : p.times q [] = 0 := rfl

theorem times_concat (q : Y.Pool → Y.Action → Bool) (p : Y.Pool) (as : List Y.Action)
    (a : Y.Action) :
    p.times q (as ++ [a]) = p.times q as + if q (p.run as) a then 1 else 0 := by
  induction as generalizing p with
  | nil => exact Nat.add_comm _ _
  | cons b as ih =>
    show (if q p b then 1 else 0) + (p.act b).times q (as ++ [a]) = _
    rw [ih, ← Nat.add_assoc]
    rfl

/-- **What calls a request makes**, what is left of its program makes. -/
theorem calls_run {A : Y.Req → S.Op → Prop} (h : ∀ r, (Y.prog r).Calls (A r) (fun _ => True))
    (w : Y.World) (acts : List Y.Action) :
    ∀ t ∈ ((Pool.init w : Y.Pool).run acts).threads, t.prog.Calls (A t.req) (fun _ => True) := by
  refine run_induction
    (fun p : Y.Pool => ∀ t ∈ p.threads, t.prog.Calls (A t.req) (fun _ => True))
    (fun p a hp _ => ?_) (fun t ht => absurd ht List.not_mem_nil) (meets_true _ acts)
  cases a with
  | arrive r =>
    show ∀ t ∈ (if Y.external r then (⟨p.world, p.threads ++ [start r p.world]⟩ : Y.Pool)
      else p).threads, _
    split
    · intro t ht
      rcases List.mem_append.mp ht with ht | ht
      · exact hp t ht
      · rw [List.mem_singleton.mp ht]
        exact h r
    · exact hp
  | step i c =>
    show ∀ t ∈ (p.step i c).threads, _
    rcases p.step_cases i c with hs | ⟨t₀, op, k, ht₀, hk, hs⟩
    · rw [hs]
      exact hp
    · rw [hs]
      intro t ht
      rcases List.mem_append.mp ht with ht | ht
      · rcases List.mem_or_eq_of_mem_set ht with ht | rfl
        · exact hp t ht
        · have hcalls := hp t₀ (List.mem_of_getElem? ht₀)
          rw [hk] at hcalls
          exact hcalls.2 _
      · obtain ⟨r, _, rfl⟩ := List.mem_map.mp ht
        exact h r
  | env e =>
    show ∀ t ∈ (if Y.kills e then [] else p.threads), _
    split
    · exact fun t ht => absurd ht List.not_mem_nil
    · exact hp

/-! ## One action and one program -/

/-- What an action does to the `i`-th program: it is new, it moved, or it is as it
was. -/
theorem act_thread {p : Y.Pool} {a : Y.Action} {i : ℕ} {t : Y.Thread}
    (ht : (p.act a).threads[i]? = some t) :
    t.view.past = [] ∨ p.threads[i]? = some t
      ∨ ∃ c t₀ op k, a = .step i c ∧ p.threads[i]? = some t₀ ∧ t₀.prog = .call op k
        ∧ (p.act a).world = (Y.exec c op p.world).1
        ∧ t = ⟨t₀.req, t₀.view.push ⟨op, p.world, (Y.exec c op p.world).1⟩,
          k (Y.exec c op p.world).2⟩ := by
  cases a with
  | arrive r =>
    replace ht : (if Y.external r then (⟨p.world, p.threads ++ [start r p.world]⟩ : Y.Pool)
      else p).threads[i]? = some t := ht
    split at ht
    · rw [List.getElem?_append] at ht
      split at ht
      · exact .inr (.inl ht)
      · left
        rw [List.mem_singleton.mp (List.mem_of_getElem? ht)]
        rfl
    · exact .inr (.inl ht)
  | step j c =>
    replace ht : (p.step j c).threads[i]? = some t := ht
    rcases p.step_cases j c with hs | ⟨t₀, op, k, ht₀, hk, hs⟩
    · rw [hs] at ht
      exact .inr (.inl ht)
    · rw [hs] at ht
      rw [List.getElem?_append] at ht
      split at ht
      · rw [List.getElem?_set] at ht
        split at ht
        · next hij =>
          subst hij
          split at ht
          · refine .inr (.inr ⟨c, t₀, op, k, rfl, ht₀, hk, ?_, (Option.some.inj ht).symm⟩)
            show (p.step j c).world = _
            rw [hs]
          · cases ht
        · exact .inr (.inl ht)
      · left
        obtain ⟨r, _, rfl⟩ := List.mem_map.mp (List.mem_of_getElem? ht)
        rfl
  | env e =>
    replace ht : (if Y.kills e then [] else p.threads)[i]? = some t := ht
    split at ht
    · cases ht
    · exact .inr (.inl ht)

/-- The program whose call was answered remembers it. -/
theorem act_remembers {p : Y.Pool} {i : ℕ} {c : Y.Choice} {t : Y.Thread}
    (ht : p.threads[i]? = some t) {op : S.Op} {k : Except S.Err (S.Res op) → Prog S Y.Ans}
    (hk : t.prog = .call op k) :
    (p.act (.step i c)).threads[i]? = some ⟨t.req,
      t.view.push ⟨op, p.world, (p.act (.step i c)).world⟩, k (Y.exec c op p.world).2⟩ := by
  have hi : i < p.threads.length := (List.getElem?_eq_some_iff.mp ht).1
  show (p.step i c).threads[i]? = some ⟨t.req, t.view.push ⟨op, p.world, (p.step i c).world⟩, _⟩
  rw [step_of_call ht hk]
  dsimp only
  rw [List.getElem?_append_left (by rw [List.length_set]; exact hi), List.getElem?_set_self hi]

/-- A program that is there stays there, and remembers what it remembered, unless
programs are ended. -/
theorem act_persists {p : Y.Pool} {a : Y.Action} {i : ℕ} {t : Y.Thread}
    (hkills : ∀ e, Y.kills e = false) (ht : p.threads[i]? = some t) :
    ∃ t', (p.act a).threads[i]? = some t' ∧ t'.req = t.req ∧ t'.view.born = t.view.born
      ∧ t.view.past <:+ t'.view.past := by
  have hi : i < p.threads.length := (List.getElem?_eq_some_iff.mp ht).1
  cases a with
  | arrive r =>
    show ∃ t', (if Y.external r then (⟨p.world, p.threads ++ [start r p.world]⟩ : Y.Pool)
      else p).threads[i]? = some t' ∧ _
    split
    · exact ⟨t, by rw [List.getElem?_append_left hi, ht], rfl, rfl, List.suffix_rfl⟩
    · exact ⟨t, ht, rfl, rfl, List.suffix_rfl⟩
  | step j c =>
    show ∃ t', (p.step j c).threads[i]? = some t' ∧ _
    rcases p.step_cases j c with hs | ⟨t₀, op, k, ht₀, hk, hs⟩
    · rw [hs]
      exact ⟨t, ht, rfl, rfl, List.suffix_rfl⟩
    · rw [hs]
      dsimp only
      rw [List.getElem?_append_left (by rw [List.length_set]; exact hi), List.getElem?_set]
      by_cases hij : j = i
      · subst hij
        rw [ht] at ht₀
        cases ht₀
        rw [if_pos rfl, if_pos hi]
        exact ⟨_, rfl, rfl, rfl, List.suffix_cons _ _⟩
      · rw [if_neg hij]
        exact ⟨t, ht, rfl, rfl, List.suffix_rfl⟩
  | env e =>
    show ∃ t', (if Y.kills e then [] else p.threads)[i]? = some t' ∧ _
    rw [hkills e]
    exact ⟨t, ht, rfl, rfl, List.suffix_rfl⟩

/-- **A program that was there is still there**, with a longer past. -/
theorem persists {p : Y.Pool} {pre post : List Y.Action} {i : ℕ} {t : Y.Thread}
    (hkills : ∀ e, Y.kills e = false) (ht : (p.run pre).threads[i]? = some t) :
    ∃ t', (p.run (pre ++ post)).threads[i]? = some t' ∧ t'.req = t.req
      ∧ t'.view.born = t.view.born ∧ t.view.past <:+ t'.view.past := by
  rw [run_append]
  generalize p.run pre = q at ht ⊢
  induction post generalizing q t with
  | nil => exact ⟨t, ht, rfl, rfl, List.suffix_rfl⟩
  | cons a as ih =>
    obtain ⟨t₁, ht₁, hreq₁, hborn₁, hpast₁⟩ := act_persists (a := a) hkills ht
    obtain ⟨t₂, ht₂, hreq₂, hborn₂, hpast₂⟩ := ih (q.act a) ht₁
    exact ⟨t₂, ht₂, hreq₂.trans hreq₁, hborn₂.trans hborn₁, hpast₁.trans hpast₂⟩

/-- **Where a program's request is from**: it was served before the action, or it has just
arrived, or a call has started it. -/
theorem act_req {p : Y.Pool} {a : Y.Action} {t : Y.Thread} (ht : t ∈ (p.act a).threads) :
    (∃ t₀ ∈ p.threads, t₀.req = t.req) ∨ (a = .arrive t.req ∧ Y.external t.req = true)
      ∨ ∃ op, t.req ∈ Y.spawns op := by
  cases a with
  | arrive r =>
    replace ht : t ∈ (if Y.external r then (⟨p.world, p.threads ++ [start r p.world]⟩ : Y.Pool)
      else p).threads := ht
    split at ht
    · next hr =>
      rcases List.mem_append.mp ht with ht | ht
      · exact .inl ⟨t, ht, rfl⟩
      · rw [List.mem_singleton.mp ht]
        exact .inr (.inl ⟨rfl, hr⟩)
    · exact .inl ⟨t, ht, rfl⟩
  | step i c =>
    replace ht : t ∈ (p.step i c).threads := ht
    rcases p.step_cases i c with hs | ⟨t₀, op, k, ht₀, _, hs⟩
    · rw [hs] at ht
      exact .inl ⟨t, ht, rfl⟩
    · rw [hs] at ht
      rcases List.mem_append.mp ht with ht | ht
      · rcases List.mem_or_eq_of_mem_set ht with ht | rfl
        · exact .inl ⟨t, ht, rfl⟩
        · exact .inl ⟨t₀, List.mem_of_getElem? ht₀, rfl⟩
      · obtain ⟨r, hr, rfl⟩ := List.mem_map.mp ht
        exact .inr (.inr ⟨op, hr⟩)
  | env e =>
    replace ht : t ∈ (if Y.kills e then [] else p.threads) := ht
    split at ht
    · cases ht
    · exact .inl ⟨t, ht, rfl⟩

/-- **Where no call starts a program**, the `i`-th has been there, or has just arrived. -/
theorem act_place {p : Y.Pool} {a : Y.Action} (hspawns : ∀ op, Y.spawns op = []) {i : ℕ}
    {t : Y.Thread} (ht : (p.act a).threads[i]? = some t) :
    (∃ t₀, p.threads[i]? = some t₀ ∧ t₀.req = t.req)
      ∨ a = .arrive t.req ∧ i = p.threads.length := by
  cases a with
  | arrive r =>
    replace ht : (if Y.external r then (⟨p.world, p.threads ++ [start r p.world]⟩ : Y.Pool)
      else p).threads[i]? = some t := ht
    split at ht
    · rw [List.getElem?_append] at ht
      split at ht
      · exact .inl ⟨t, ht, rfl⟩
      · next hlt =>
        obtain ⟨hi, rfl⟩ := List.getElem?_eq_some_iff.mp ht
        refine .inr ⟨?_, ?_⟩
        · rw [List.getElem_singleton]
          rfl
        · rw [List.length_singleton] at hi
          omega
    · exact .inl ⟨t, ht, rfl⟩
  | step j c =>
    replace ht : (p.step j c).threads[i]? = some t := ht
    left
    rcases p.step_cases j c with hs | ⟨t₀, op, k, ht₀, _, hs⟩
    · rw [hs] at ht
      exact ⟨t, ht, rfl⟩
    · rw [hs, hspawns op, List.map_nil, List.append_nil] at ht
      dsimp only at ht
      rw [List.getElem?_set] at ht
      split at ht
      · next hji =>
        subst hji
        split at ht
        · cases ht
          exact ⟨t₀, ht₀, rfl⟩
        · cases ht
      · exact ⟨t, ht, rfl⟩
  | env e =>
    replace ht : (if Y.kills e then [] else p.threads)[i]? = some t := ht
    split at ht
    · cases ht
    · exact .inl ⟨t, ht, rfl⟩

/-- **Every program serves a request that may arrive**, or one that a call starts. -/
theorem req_allowed {w : Y.World} {acts : List Y.Action} {t : Y.Thread}
    (ht : t ∈ ((Pool.init w : Y.Pool).run acts).threads) :
    Y.external t.req = true ∨ ∃ op, t.req ∈ Y.spawns op := by
  refine run_induction
    (fun p : Y.Pool => ∀ t ∈ p.threads, Y.external t.req = true ∨ ∃ op, t.req ∈ Y.spawns op)
    (fun p a hp _ t ht => ?_) (fun t ht => absurd ht List.not_mem_nil) (meets_true _ acts) t ht
  rcases act_req ht with ⟨t₀, ht₀, hreq⟩ | ⟨_, hexternal⟩ | hspawned
  · rw [← hreq]
    exact hp t₀ ht₀
  · exact .inl hexternal
  · exact .inr hspawned

/-- **Where nothing joins and nothing is ended**, an action answers a call of one of the
programs there are, or changes none of them. -/
theorem act_closed {p : Y.Pool} {a : Y.Action} (hexternal : ∀ r, Y.external r = false)
    (hspawns : ∀ op, Y.spawns op = []) (hkills : ∀ e, Y.kills e = false) :
    ((p.act a).threads = p.threads
        ∧ ((p.act a).world = p.world ∨ ∃ e, (p.act a).world = Y.env e p.world))
      ∨ ∃ i c t op k, a = .step i c ∧ p.threads[i]? = some t ∧ t.prog = .call op k
        ∧ p.act a = ⟨(Y.exec c op p.world).1,
          p.threads.set i ⟨t.req, t.view.push ⟨op, p.world, (Y.exec c op p.world).1⟩,
            k (Y.exec c op p.world).2⟩⟩ := by
  cases a with
  | arrive r =>
    left
    have hsame : p.act (.arrive r) = p := if_neg (by rw [hexternal r]; exact Bool.false_ne_true)
    rw [hsame]
    exact ⟨rfl, .inl rfl⟩
  | env e =>
    left
    refine ⟨?_, .inr ⟨e, rfl⟩⟩
    show (if Y.kills e then [] else p.threads) = p.threads
    rw [hkills e]
    rfl
  | step i c =>
    rcases p.step_cases i c with hs | ⟨t, op, k, ht, hk, hs⟩
    · left
      show (p.step i c).threads = p.threads ∧ ((p.step i c).world = p.world ∨ _)
      rw [hs]
      exact ⟨rfl, .inl rfl⟩
    · refine .inr ⟨i, c, t, op, k, rfl, ht, hk, ?_⟩
      show p.step i c = _
      rw [hs, hspawns op, List.map_nil, List.append_nil]

/-! ## A call and its action -/

/-- **The action that answered a call**: after `pre`, the `i`-th program waited on
the call, and the choice `c` answered it. -/
structure CalledAt (p : Y.Pool) (i : ℕ) (t : Y.Thread) (e : Event S Y.World)
    (pre : List Y.Action) (c : Y.Choice) (post : List Y.Action) : Prop where
  /-- The program at that point, waiting on the call. -/
  waiting : ∃ t₀ k, (p.run pre).threads[i]? = some t₀ ∧ t₀.req = t.req ∧ t₀.prog = .call e.op k
    ∧ e :: t₀.view.past <:+ t.view.past
  before : e.before = (p.run pre).world
  answered : e.after = (Y.exec c e.op e.before).1
  after : e.after = (p.run (pre ++ [.step i c])).world
  /-- The program at the end of the run. -/
  later : (p.run (pre ++ .step i c :: post)).threads[i]? = some t

/-- **A call in a program's past is an action of the run.** -/
theorem called {w : Y.World} {acts : List Y.Action} {i : ℕ} {t : Y.Thread}
    (ht : ((Pool.init w : Y.Pool).run acts).threads[i]? = some t) {e : Event S Y.World}
    (he : e ∈ t.view.past) :
    ∃ pre c post, acts = pre ++ .step i c :: post
      ∧ CalledAt (Pool.init w : Y.Pool) i t e pre c post := by
  induction acts using List.reverseRecOn generalizing t with
  | nil => cases ht
  | append_singleton as a ih =>
    have hlast := ht
    rw [run_concat] at ht
    -- a call of the past was made before, unless it is the one just answered
    have hold : ∀ t₀ : Y.Thread, ((Pool.init w : Y.Pool).run as).threads[i]? = some t₀ →
        e ∈ t₀.view.past → t₀.req = t.req → t₀.view.past <:+ t.view.past →
        ∃ pre c post, as ++ [a] = pre ++ .step i c :: post
          ∧ CalledAt (Pool.init w : Y.Pool) i t e pre c post := by
      intro t₀ ht₀ he₀ hreq hpast
      obtain ⟨pre, c, post, rfl, hcalled⟩ := ih ht₀ he₀
      obtain ⟨t₁, k, ht₁, hreq₁, hk, hsuffix⟩ := hcalled.waiting
      refine ⟨pre, c, post ++ [a], by rw [List.append_assoc]; rfl,
        ⟨t₁, k, ht₁, hreq₁.trans hreq, hk, hsuffix.trans hpast⟩, hcalled.before,
        hcalled.answered, hcalled.after, ?_⟩
      rw [List.append_assoc] at hlast
      exact hlast
    rcases act_thread ht with hnil | hsame | ⟨c, t₀, op, k, rfl, ht₀, hk, hworld, rfl⟩
    · rw [hnil] at he
      cases he
    · exact hold t hsame he rfl List.suffix_rfl
    · rcases List.mem_cons.mp he with rfl | he'
      · exact ⟨as, c, [], rfl, ⟨t₀, k, ht₀, rfl, hk, List.suffix_rfl⟩, rfl, rfl,
          by rw [run_concat, hworld], hlast⟩
      · exact hold t₀ ht₀ he' rfl (List.suffix_cons _ _)

/-- A program that was not there yet made its calls later. -/
theorem CalledAt.not_before {p : Y.Pool} {i : ℕ} {t : Y.Thread} {e : Event S Y.World}
    {acts pre post : List Y.Action} {c : Y.Choice} (h : CalledAt p i t e pre c post)
    (hkills : ∀ e, Y.kills e = false) (hi : (p.run acts).threads.length ≤ i)
    {rest : List Y.Action} (hacts : pre ++ .step i c :: post = acts ++ rest) :
    ∃ mid, pre = acts ++ mid ∧ rest = mid ++ .step i c :: post := by
  rcases List.append_eq_append_iff.mp hacts with ⟨as, rfl, has⟩ | ⟨as, rfl, has⟩
  · -- the program was there already
    obtain ⟨t₀, _, ht₀, _⟩ := h.waiting
    obtain ⟨t₁, ht₁, _⟩ := persists hkills ht₀
    exact absurd (List.getElem?_eq_some_iff.mp ht₁).1 (Nat.not_lt.mpr hi)
  · exact ⟨as, rfl, has⟩

/-- **A program that has finished stays as it is**, unless programs are ended. -/
theorem act_finished {p : Y.Pool} {a : Y.Action} {i : ℕ} {t : Y.Thread}
    (hkills : ∀ e, Y.kills e = false) (ht : p.threads[i]? = some t) (hdone : t.outcome ≠ none) :
    (p.act a).threads[i]? = some t := by
  have hi : i < p.threads.length := (List.getElem?_eq_some_iff.mp ht).1
  cases a with
  | arrive r =>
    show (if Y.external r then (⟨p.world, p.threads ++ [start r p.world]⟩ : Y.Pool)
      else p).threads[i]? = some t
    split
    · rw [List.getElem?_append_left hi]
      exact ht
    · exact ht
  | step j c =>
    show (p.step j c).threads[i]? = some t
    rcases p.step_cases j c with hs | ⟨t₀, op, k, ht₀, hk, hs⟩
    · rw [hs]
      exact ht
    · have hij : j ≠ i := by
        rintro rfl
        cases ht.symm.trans ht₀
        unfold Thread.outcome at hdone
        rw [hk] at hdone
        exact hdone rfl
      rw [hs]
      dsimp only
      rw [List.getElem?_append_left (by rw [List.length_set]; exact hi),
        List.getElem?_set_ne hij]
      exact ht
  | env e =>
    show (if Y.kills e then [] else p.threads)[i]? = some t
    rw [hkills e]
    exact ht

end Sys.Pool

namespace Protocol

variable {P : Protocol Y} {Post : Y.Req → View S Y.World → Except S.Err Y.Ans → Prop}
  {w₀ : Y.World} {acts : List Y.Action}

/-- **Every call a program remembers kept the protocol.** -/
theorem Sound.takes_past (hS : P.Sound Post) (h₀ : P.Inv w₀)
    (hm : (Sys.Pool.init w₀).Meets P.cond acts = true) {t : Y.Thread}
    (ht : t ∈ ((Sys.Pool.init w₀).run acts).threads) {e : Event S Y.World} (he : e ∈ t.view.past) :
    ∃ v, P.Takes t.req v e := by
  obtain ⟨i, hi⟩ := List.getElem?_of_mem ht
  obtain ⟨pre, c, post, rfl, hcalled⟩ := Sys.Pool.called hi he
  obtain ⟨t₀, k, ht₀, hreq, hk, _⟩ := hcalled.waiting
  obtain ⟨hpre, hrest⟩ := Sys.Pool.meets_append.mp hm
  have htakes := ((hS.run h₀ hpre).answer ht₀ hk
    (P.cond_step ht₀ hk (Sys.Pool.meets_cons.mp hrest).1)).1
  refine ⟨t₀.view, ?_⟩
  have hevent : e = ⟨e.op, ((Sys.Pool.init w₀).run pre).world,
      (Y.exec c e.op ((Sys.Pool.init w₀).run pre).world).1⟩ := by
    rw [← hcalled.before, ← hcalled.answered]
  rw [hevent, ← hreq]
  exact htakes

end Protocol
