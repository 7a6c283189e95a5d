import Masadan.Deliveries

/-!
# No delivery is handed to two agents at once

A poll chooses candidates, claims those that are still claimable under an id of its
own, and hands out what it reads back under that id. Three calls, and any number of
polls at once; what keeps two of them apart is the update in the middle, which looks
at each row again as it writes.

If two polls return the same delivery, each has claimed it, one after the other. From
the first claim on the delivery is claimed under that id, or settled as sent, until
something releases it: an ack of a failed print, a retry, or the claim's age, which
the sweep and the other poll both ask for. So one of these lies between the two claims
(`claimed_once`).
-/

namespace Masadan

/-- The server with its retries. -/
abbrev agentsServer : Sys api := bridgeServer true false

/-- A run of it. -/
abbrev agentsRun (w₀ : World) (acts : List agentsServer.Action) : agentsServer.Pool :=
  bridgeRun true false w₀ acts

/-- **The random ids are what they are drawn for**: no two polls draw the same one, and
no row of the first world carries one of them. -/
structure FreshClaims (w₀ : World) (p : agentsServer.Pool) : Prop where
  nodup : (p.threads.filterMap (fun t => t.req.claimId?)).Nodup
  unused : ∀ claimId ∈ p.threads.filterMap (fun t => t.req.claimId?),
    ∀ row ∈ w₀.posDeliveries.rows, row.2.claimId ≠ some claimId

theorem FreshClaims.distinct {w₀ : World} {p : agentsServer.Pool} (h : FreshClaims w₀ p) {i j : ℕ}
    {t t' : agentsServer.Thread} {key key' : Option Text} {claimId : ℕ}
    (ht : p.threads[i]? = some t) (ht' : p.threads[j]? = some t') (hreq : t.req = .poll key claimId)
    (hreq' : t'.req = .poll key' claimId) : i = j := by
  refine place_unique h.nodup ht ht' (b := claimId) ?_ ?_
  · rw [hreq]
    rfl
  · rw [hreq']
    rfl

theorem FreshClaims.unused' {w₀ : World} {p : agentsServer.Pool} (h : FreshClaims w₀ p)
    {t : agentsServer.Thread} {key : Option Text} {claimId : ℕ} (ht : t ∈ p.threads)
    (hreq : t.req = .poll key claimId) {id : Id} {d : PosDelivery}
    (hd : w₀.posDeliveries.get? id = some d) : d.claimId ≠ some claimId :=
  h.unused claimId (List.mem_filterMap.mpr ⟨t, ht, by rw [hreq]; rfl⟩) (id, d)
    (Rows.get?_eq_some_iff.mp hd)

/-- The `i`-th program is a poll under the claim id and has returned the delivery. -/
def Returned (p : agentsServer.Pool) (i : ℕ) (claimId : ℕ) (id : Id) : Prop :=
  ∃ t key handed, p.threads[i]? = some t ∧ t.req = .poll key claimId
    ∧ t.outcome = some (.ok (.polled (.deliveries handed))) ∧ ∃ h ∈ handed, h.id = id

/-- **The claiming update** of the `i`-th program, as far as the delivery goes: a step of
it that claims the delivery under the id. -/
structure Claims (p : agentsServer.Pool) (a : agentsServer.Action) (i : ℕ) (claimId : ℕ)
    (id : Id) : Prop where
  step : ∃ c, a = .step i c
  fresh : ¬ p.world.ClaimedUnder claimId id
  claimed : (p.act a).world.ClaimedUnder claimId id

/-- **What releases a delivery** that is claimed under the id. -/
inductive Releases (claimId : ℕ) (id : Id) (p : agentsServer.Pool) : agentsServer.Action → Prop
  /-- The write of an ack of a failed print. -/
  | ack {k : ℕ} {c : Choice} {t : agentsServer.Thread} {key : Option Text} {body : AckBody}
      {attempts : ℕ} (ht : p.threads[k]? = some t) (hr : t.req = .ack key body)
      (hid : body.deliveryId = some id) (hfailed : body.ok = false)
      (hop : t.prog.next = some (.posDeliveryUpdate id (settle body attempts))) :
      Releases claimId id p (.step k c)
  /-- The write of a retry. -/
  | retry {k : ℕ} {c : Choice} {t : agentsServer.Thread} {staff : Option StaffClaims}
      (ht : p.threads[k]? = some t) (hr : t.req = .retry staff id)
      (hop : t.prog.next = some (.posDeliveryUpdate id again)) :
      Releases claimId id p (.step k c)
  /-- The claim has no time, or is older than the timeout. -/
  | stale {a : agentsServer.Action} {d : PosDelivery}
      (hd : p.world.posDeliveries.get? id = some d) (hclaimed : d.status = .claimed)
      (hclaim : d.claimId = some claimId)
      (hstale : d.StaleBefore (p.world.now - CLAIM_TIMEOUT_MS)) : Releases claimId id p a

/-! ## Who claims under an id -/

/-- **A row gets a claim id from the poll that drew it**, and is claimed then. -/
theorem RowStep.claimId {rough : Bool} {r : BridgeRequest} {op : Call} {w : World} {id : Id}
    {d d' : PosDelivery} (h : RowStep rough r op w id d d') {claimId : ℕ}
    (hbefore : d.claimId ≠ some claimId) (hafter : d'.claimId = some claimId) :
    (∃ key, r = .poll key claimId) ∧ d'.status = .claimed := by
  cases h with
  | claimed hr hclaimable hstale =>
    cases hafter
    exact ⟨⟨_, hr⟩, rfl⟩
  | settled hr hid hop =>
    unfold settle at hafter
    split at hafter
    · cases hafter
    · cases hafter
  | retried hr hop => cases hafter
  | expired hr hclaimed hstale claimedAt => cases hafter
  | _ => exact absurd hafter hbefore

section

variable {w₀ : World} {acts : List agentsServer.Action}

theorem agents_ok (w₀ : World) (acts : List agentsServer.Action) :
    (deliveryProtocol true false).PoolOk bridgePost w₀ (agentsRun w₀ acts) :=
  (deliverySound true false).run trivial
    ((deliveryProtocol true false).meets_cond (fun _ _ _ _ _ => rfl) _ _)

/-- Programs are not ended here. -/
theorem agents_steady (e : agentsServer.Env) : agentsServer.kills e = false := by
  cases e with
  | tick ms => rfl
  | crash => rfl

/-- **What an action does to the deliveries**: nothing, or it answers a call of some
program, which does what its request may. -/
theorem agents_step (w₀ : World) (acts : List agentsServer.Action) (a : agentsServer.Action) :
    (agentsRun w₀ (acts ++ [a])).world.posDeliveries = (agentsRun w₀ acts).world.posDeliveries
      ∨ ∃ k c t op, a = .step k c ∧ (agentsRun w₀ acts).threads[k]? = some t
        ∧ t.prog.next = some op
        ∧ RowSteps false t.req ⟨op, (agentsRun w₀ acts).world, (agentsRun w₀ (acts ++ [a])).world⟩ := by
  rw [agentsRun, agentsRun, bridgeRun, Sys.Pool.run_concat]
  rcases (agents_ok w₀ acts).act_cases (a := a)
      ((deliveryProtocol true false).cond_true (fun _ _ _ _ _ => rfl) _ _) with
    hsame | ⟨e, rfl, henv⟩ | ⟨k, c, t, op, rest, rfl, ht, hk, _, _, htakes⟩
  · exact .inl (by rw [hsame])
  · left
    rw [henv]
    cases e with
    | tick ms => rfl
    | crash => rfl
  · exact .inr ⟨k, c, t, op, rfl, ht, by rw [hk]; rfl, htakes.here⟩

/-- **Who has returned a delivery has claimed it.** -/
theorem Returned.claims {i : ℕ} {claimId : ℕ} {id : Id} (hfresh : FreshClaims w₀ (agentsRun w₀ acts))
    (h : Returned (agentsRun w₀ acts) i claimId id) :
    ∃ pre a post, acts = pre ++ a :: post ∧ Claims (agentsRun w₀ pre) a i claimId id := by
  obtain ⟨t, key, handed, ht, hreq, hout, hd, hmem, rfl⟩ := h
  have htm := List.mem_of_getElem? ht
  have hpost := (agents_ok w₀ acts).post htm hout
  rw [hreq] at hpost
  -- it was read back under the claim id
  obtain ⟨e, he, rfl⟩ : ∃ e ∈ t.view.past, handed = e.before.claimedUnder claimId := by
    rcases hpost with rfl | h
    · cases hmem
    · exact h
  obtain ⟨d, hget, hclaim, _⟩ := mem_claimedUnder hmem
  obtain ⟨pre, c, post, rfl, hcalled⟩ := Sys.Pool.called ht he
  rw [hcalled.before] at hget
  -- and no row carried it in the beginning, so some action before gave it
  have hunused : ∀ d', (Sys.Pool.init w₀ : agentsServer.Pool).world.posDeliveries.get? hd.id = some d' →
      d'.claimId ≠ some claimId :=
    fun d' hd' => hfresh.unused' htm hreq hd'
  obtain ⟨pre₁, a, post₁, rfl, hnot, hnow⟩ := Sys.Pool.exists_leaving
    (I := fun p : agentsServer.Pool => ∀ d', p.world.posDeliveries.get? hd.id = some d' →
      d'.claimId ≠ some claimId) hunused (fun hall => hall d hget hclaim)
  refine ⟨pre₁, a, post₁ ++ .step i c :: post, by rw [List.append_assoc]; rfl, ?_⟩
  push Not at hnow
  obtain ⟨d₁, hd₁, hclaim₁⟩ := hnow
  rcases agents_step w₀ pre₁ a with hsame | ⟨k, c', t₁, op, rfl, ht₁, _, hsteps⟩
  · exact absurd hclaim₁ (hnot d₁ (hsame ▸ hd₁))
  · cases hbefore : (agentsRun w₀ pre₁).world.posDeliveries.get? hd.id with
    | none =>
      rw [(hsteps.fresh hd.id d₁ hbefore hd₁).2] at hclaim₁
      cases hclaim₁
    | some d₀ =>
      obtain ⟨d', hd', hstep⟩ := hsteps.step hd.id d₀ hbefore
      obtain rfl : d₁ = d' := Option.some.inj (hd₁.symm.trans hd')
      obtain ⟨⟨key', hreq₁⟩, hclaimed⟩ := hstep.claimId (hnot d₀ hbefore) hclaim₁
      -- the program that gave it drew it, so it is the poll itself
      rw [List.append_assoc] at hfresh ht
      obtain ⟨t₂, ht₂, hreq₂, _⟩ := Sys.Pool.persists agents_steady ht₁
      have hki : k = i := hfresh.distinct ht₂ ht (hreq₂.trans hreq₁) hreq
      subst hki
      refine ⟨⟨c', rfl⟩, ?_, ?_⟩
      · rintro ⟨d₂, hd₂, _, hclaim₂⟩
        exact hnot d₂ hd₂ hclaim₂
      · rw [← Sys.Pool.run_concat]
        exact ⟨d₁, hd₁, hclaimed, hclaim₁⟩

/-- The delivery is held under the id: claimed, or settled as sent. -/
def World.HeldUnder (w : World) (claimId : ℕ) (id : Id) : Prop :=
  ∃ d, w.posDeliveries.get? id = some d
    ∧ ((d.status = .claimed ∧ d.claimId = some claimId) ∨ d.status = .sent)

/-- **What ends a hold releases the delivery.** -/
theorem releases_of_leaving {a : agentsServer.Action} {claimId : ℕ} {id : Id}
    (hheld : (agentsRun w₀ acts).world.HeldUnder claimId id)
    (hnot : ¬ (agentsRun w₀ (acts ++ [a])).world.HeldUnder claimId id) :
    Releases claimId id (agentsRun w₀ acts) a := by
  obtain ⟨d, hd, hs⟩ := hheld
  rcases agents_step w₀ acts a with hsame | ⟨k, c, t, op, rfl, ht, hop, hsteps⟩
  · exact absurd ⟨d, by rw [hsame]; exact hd, hs⟩ hnot
  · obtain ⟨d', hd', hstep⟩ := hsteps.step id d hd
    have hleft : ¬ ((d'.status = .claimed ∧ d'.claimId = some claimId) ∨ d'.status = .sent) :=
      fun h => hnot ⟨d', hd', h⟩
    -- a held row that is not claimed is sent, and so not claimed
    have hstale : ∀ s, d.status = .claimed → d.StaleBefore s →
        s ≤ (agentsRun w₀ acts).world.now - CLAIM_TIMEOUT_MS →
        Releases claimId id (agentsRun w₀ acts) (.step k c) := by
      intro s hclaimed hold hle
      rcases hs with ⟨_, hclaim⟩ | hsent
      · exact .stale hd hclaimed hclaim (hold.mono hle)
      · rw [hclaimed] at hsent
        cases hsent
    cases hstep with
    | same => exact absurd hs hleft
    | claimed hr hclaimable hle =>
      rcases claimable_cases hclaimable with hpending | ⟨hclaimed, hold⟩
      · rcases hs with ⟨h, _⟩ | h
        · rw [hpending] at h
          cases h
        · rw [hpending] at h
          cases h
      · exact hstale _ hclaimed hold hle
    | settled hr hid hsettle =>
      next key body attempts =>
      cases hok : body.ok with
      | true =>
        refine absurd (.inr ?_) hleft
        unfold settle
        rw [if_pos hok]
      | false => exact .ack ht hr hid hok (hop.trans (congrArg some hsettle))
    | retried hr hagain => exact .retry ht hr (hop.trans (congrArg some hagain))
    | expired hr hclaimed hold claimedAt => exact hstale _ hclaimed hold (le_refl _)
    | exhausted hr hpending =>
      rcases hs with ⟨h, _⟩ | h
      · rw [hpending] at h
        cases h
      · rw [hpending] at h
        cases h
    | pushed hadapter => exact absurd (.inr rfl) hleft
    | refused hadapter hrough => cases hrough

/-- Between two claims of a delivery, under two ids, it is released. -/
theorem released_between {pre mid : List agentsServer.Action} {a b : agentsServer.Action}
    {i j claimId claimId' : ℕ} {id : Id} (hne : claimId ≠ claimId')
    (ha : Claims (agentsRun w₀ pre) a i claimId id)
    (hb : Claims (agentsRun w₀ (pre ++ a :: mid)) b j claimId' id) :
    ∃ m x rest, mid ++ [b] = m ++ x :: rest
      ∧ Releases claimId id (agentsRun w₀ (pre ++ a :: m)) x := by
  have hheld : (agentsRun w₀ (pre ++ [a])).world.HeldUnder claimId id := by
    obtain ⟨d, hd, hclaimed, hclaim⟩ := ha.claimed
    rw [agentsRun, bridgeRun, Sys.Pool.run_concat]
    exact ⟨d, hd, .inl ⟨hclaimed, hclaim⟩⟩
  have hnot : ¬ (Sys.Pool.run (agentsRun w₀ (pre ++ [a])) (mid ++ [b])).world.HeldUnder claimId id := by
    rintro ⟨d, hd, hs⟩
    obtain ⟨d', hd', hclaimed, hclaim⟩ := hb.claimed
    rw [← Sys.Pool.run_append, List.append_assoc, ← List.append_assoc [a], List.singleton_append,
      ← List.append_assoc, Sys.Pool.run_concat] at hd
    obtain rfl : d = d' := Option.some.inj (hd.symm.trans hd')
    rcases hs with ⟨_, h⟩ | h
    · exact hne (Option.some.inj (h.symm.trans hclaim))
    · rw [hclaimed] at h
      cases h
  obtain ⟨m, x, rest, hsplit, hm, hx⟩ := Sys.Pool.exists_leaving
    (I := fun p : agentsServer.Pool => p.world.HeldUnder claimId id) hheld hnot
  refine ⟨m, x, rest, hsplit, ?_⟩
  rw [← Sys.Pool.run_append, List.append_assoc, List.singleton_append] at hm
  rw [← Sys.Pool.run_append, List.append_assoc, ← List.append_assoc [a], List.singleton_append,
    ← List.append_assoc] at hx
  exact releases_of_leaving hm hx

end

/-- **No delivery is handed to two agents at once**: if two polls return it, it was
released between the claim of the one and the claim of the other. -/
theorem claimed_once (w₀ : World) (acts : List agentsServer.Action)
    (hfresh : FreshClaims w₀ (agentsRun w₀ acts)) {i j claimId claimId' : ℕ} {id : Id} (hij : i ≠ j)
    (hi : Returned (agentsRun w₀ acts) i claimId id)
    (hj : Returned (agentsRun w₀ acts) j claimId' id) :
    ∃ pre a mid b post, acts = pre ++ a :: (mid ++ b :: post) ∧
      ((Claims (agentsRun w₀ pre) a i claimId id
          ∧ Claims (agentsRun w₀ (pre ++ a :: mid)) b j claimId' id
          ∧ ∃ m x rest, mid ++ [b] = m ++ x :: rest
            ∧ Releases claimId id (agentsRun w₀ (pre ++ a :: m)) x)
        ∨ (Claims (agentsRun w₀ pre) a j claimId' id
          ∧ Claims (agentsRun w₀ (pre ++ a :: mid)) b i claimId id
          ∧ ∃ m x rest, mid ++ [b] = m ++ x :: rest
            ∧ Releases claimId' id (agentsRun w₀ (pre ++ a :: m)) x)) := by
  have hne : claimId ≠ claimId' := by
    rintro rfl
    obtain ⟨t, key, _, ht, hreq, _⟩ := hi
    obtain ⟨t', key', _, ht', hreq', _⟩ := hj
    exact hij (hfresh.distinct ht ht' hreq hreq')
  obtain ⟨pre, a, post, rfl, ha⟩ := hi.claims hfresh
  obtain ⟨pre', b, post', heq, hb⟩ := hj.claims hfresh
  rcases split_order heq with ⟨rfl, rfl⟩ | ⟨mid, rfl, rfl⟩ | ⟨mid, rfl, rfl⟩
  · -- one action is not a step of two programs
    obtain ⟨c, rfl⟩ := ha.step
    obtain ⟨c', hstep⟩ := hb.step
    cases hstep
    exact absurd rfl hij
  · exact ⟨pre, a, mid, b, post', rfl, .inl ⟨ha, hb, released_between hne ha hb⟩⟩
  · exact ⟨pre', b, mid, a, post, heq, .inr ⟨hb, ha, released_between hne.symm hb ha⟩⟩

/-- An agent that is given up, and another that is handed the delivery after it. -/
theorem claimed_once_stale :
    ∃ pre a mid b post, (claimedTwice : List agentsServer.Action) = pre ++ a :: (mid ++ b :: post) ∧
      ((Claims (agentsRun kitchenBehindBridge pre) a 0 1 0
          ∧ Claims (agentsRun kitchenBehindBridge (pre ++ a :: mid)) b 1 2 0
          ∧ ∃ m x rest, mid ++ [b] = m ++ x :: rest
            ∧ Releases 1 0 (agentsRun kitchenBehindBridge (pre ++ a :: m)) x)
        ∨ (Claims (agentsRun kitchenBehindBridge pre) a 1 2 0
          ∧ Claims (agentsRun kitchenBehindBridge (pre ++ a :: mid)) b 0 1 0
          ∧ ∃ m x rest, mid ++ [b] = m ++ x :: rest
            ∧ Releases 2 0 (agentsRun kitchenBehindBridge (pre ++ a :: m)) x)) := by
  refine claimed_once kitchenBehindBridge claimedTwice ⟨by decide, by decide⟩ (by decide) ?_ ?_
  · exact ⟨_, some [], _, rfl, rfl, rfl, _, List.mem_cons_self, rfl⟩
  · exact ⟨_, some [], _, rfl, rfl, rfl, _, List.mem_cons_self, rfl⟩

end Masadan
