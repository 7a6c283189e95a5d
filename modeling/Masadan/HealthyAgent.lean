import Masadan.Agent
import Masadan.BridgeTurns

/-!
# An agent that never crashes

An agent prints its batch one delivery after another, each print within the socket's
timeout, and reports each at once. So a batch may take as long as ten timeouts, and the
sweep gives up a claim after a minute: it may take a claim from an agent that is in good
health, and in the middle of its work. What that agent then prints and reports is
ignored, and handed out to it again (`printed_once_fails`).

While no sweep runs later than the timeout of the claims, for as long as there is still
something of the batch to report, nothing is printed twice (`printed_once`).
-/

namespace Masadan

/-- **A venue with one agent, which is at work**: the server, and where the agent
stands. -/
structure AtWork where
  world : World
  /-- The deliveries of the batch it has yet to report; the first is at the printer. -/
  batch : List Handed
  /-- When the batch was claimed. -/
  claimedAt : Time
  /-- Since when the first is at the printer. -/
  since : Time
  /-- The deliveries it has printed, and reported so. -/
  printed : List Id

/-- What happens next. -/
inductive AgentTurn where
  | poll (claimId : ℕ)
  /-- The print is over: resolved, or rejected with an error. -/
  | finish (err : Option Text)
  | sweep
  | enqueue (job : Job)
  | wait (ms : ℕ)

/-- A random id that no row carries. -/
def World.freshClaim (w : World) (claimId : ℕ) : Bool :=
  w.posDeliveries.count (fun _ d => d.claimId == some claimId) == 0

namespace AtWork

/-- The agent at the start. -/
def idle (w : World) : AtWork := ⟨w, [], w.now, w.now, []⟩

/-- **A poll**, when the last batch is done: the agent goes on to print what it is
handed. -/
def poll (config : AgentConfig) (s : AtWork) (claimId : ℕ) : AtWork × List Handed :=
  if s.batch.isEmpty && s.world.freshClaim claimId then
    let r := s.world.polled (some config.key) claimId
    ({ s with world := r.1, batch := r.2, claimedAt := s.world.now, since := s.world.now }, r.2)
  else (s, [])

/-- **A print is over** and reported; the next begins. -/
def finish (config : AgentConfig) (s : AtWork) (err : Option Text) : AtWork :=
  match s.batch with
  | [] => s
  | d :: rest =>
    { s with
      world := s.world.after (postAck (some config.key) (ackBody d.id err))
      batch := rest
      since := s.world.now
      printed := if err.isNone then d.id :: s.printed else s.printed }

/-- Time passes, but no print takes longer than the socket's timeout. -/
def wait (config : AgentConfig) (s : AtWork) (ms : ℕ) : AtWork :=
  if s.batch.isEmpty || decide (s.world.now + ms ≤ s.since + config.socketTimeout) then
    { s with world := { s.world with now := s.world.now + ms } }
  else s

def take (config : AgentConfig) (s : AtWork) : AgentTurn → AtWork
  | .poll claimId => (s.poll config claimId).1
  | .finish err => s.finish config err
  | .sweep => { s with world := s.world.after sweepPosDeliveries }
  | .enqueue j => { s with world := s.world.after (enqueuePosDelivery j.orderId j.amendment) }
  | .wait ms => s.wait config ms

def turns (config : AgentConfig) (s : AtWork) (ts : List AgentTurn) : AtWork :=
  ts.foldl (fun s t => s.take config t) s

/-- **The sweep is not too late for the batch**: the claims are no older than their
timeout. -/
def sweptInTime (s : AtWork) : AgentTurn → Bool
  | .sweep => s.batch.isEmpty || decide (s.world.now ≤ s.claimedAt + CLAIM_TIMEOUT_MS)
  | _ => true

/-- No sweep of the run is. -/
def InTime (config : AgentConfig) : AtWork → List AgentTurn → Bool
  | _, [] => true
  | s, t :: ts => s.sweptInTime t && InTime config (s.take config t) ts

end AtWork

/-! ## What the server holds for the agent -/

/-- **What is printed is sent, and the batch is claimed** since the agent was handed
it. -/
structure Holds (config : AgentConfig) (batch : List Handed) (claimedAt : Time)
    (printed : List Id) (w : World) : Prop where
  printed : ∀ id ∈ printed, ∃ d, w.posDeliveries.get? id = some d ∧ d.status = .sent
  held : ∀ h ∈ batch, ∃ d, w.posDeliveries.get? h.id = some d
    ∧ w.keyVenue (some config.key) = some d.venueId ∧ d.status = .claimed
    ∧ d.adapter = .escpos_bridge ∧ d.claimedAt = some claimedAt

/-- The agent and the server agree. -/
structure Healthy (config : AgentConfig) (s : AtWork) : Prop where
  holds : Holds config s.batch s.claimedAt s.printed s.world
  nodup : (s.batch.map Handed.id).Nodup

/-- The sweep and the jobs leave sent rows sent, and a claim that is in time alone. -/
theorem RowStep.spares {r : BridgeRequest} {op : Call} {w : World} {id : Id} {d d' : PosDelivery}
    (h : RowStep false r op w id d d') (hr : r = .sweep ∨ ∃ j, r = .enqueue j) :
    (d.status = .sent → d'.status = .sent)
    ∧ (d.status = .claimed → d.adapter = .escpos_bridge →
      (r = .sweep → ¬ d.StaleBefore (w.now - CLAIM_TIMEOUT_MS)) → d' = d) := by
  cases h with
  | same => exact ⟨fun h => h, fun _ _ _ => rfl⟩
  | claimed hpoll => rcases hr with rfl | ⟨j, rfl⟩ <;> cases hpoll
  | settled hack => rcases hr with rfl | ⟨j, rfl⟩ <;> cases hack
  | retried hretry => rcases hr with rfl | ⟨j, rfl⟩ <;> cases hretry
  | expired hsweep hclaimed hstale =>
    refine ⟨fun hsent => ?_, fun _ _ hnot => absurd hstale (hnot hsweep)⟩
    rw [hclaimed] at hsent
    cases hsent
  | exhausted hsweep hpending =>
    constructor
    · intro hsent
      rw [hpending] at hsent
      cases hsent
    · intro hclaimed
      rw [hpending] at hclaimed
      cases hclaimed
  | pushed hadapter =>
    refine ⟨fun _ => rfl, fun _ hescpos => ?_⟩
    rw [hadapter] at hescpos
    cases hescpos
  | refused hadapter hrough => cases hrough

section

variable {config : AgentConfig} {batch : List Handed} {claimedAt : Time} {printed : List Id}
  {w w' : World}

/-- **A sweep in time, or a job, alone.** -/
theorem Holds.after {r : BridgeRequest} {α : Type} {p : Api α} {B : α → Prop}
    {Q : View api World → Except DbError α → Prop} (h : Holds config batch claimedAt printed w)
    (hr : r = .sweep ∨ ∃ j, r = .enqueue j)
    (hp : (deliveryProtocol false false).Ok r Q ⟨w, []⟩ p) (hcalls : p.Calls Call.OutboxWork B)
    (hintime : r = .sweep → batch = [] ∨ w.now ≤ claimedAt + CLAIM_TIMEOUT_MS) :
    Holds config batch claimedAt printed (w.after p) := by
  have halone := Protocol.ok_alone (c := plain) (K := fun u : World => u.now = w.now
    ∧ u.bridgeKeys = w.bridgeKeys ∧ Holds config batch claimedAt printed u) hp hcalls
    (fun _ _ _ => rfl) (fun v op u hop htakes hu => ?_) trivial Protocol.Rely.rfl' ⟨rfl, rfl, h⟩
  · exact halone.2.2
  · obtain ⟨hnow, hkeys, hholds⟩ := hu
    obtain ⟨deliveries, heq⟩ := exec_outboxWork (c := plain) hop u
    have hsteps := htakes.here
    replace heq : ((bridgeServer false false).exec plain op u).1
      = { u with posDeliveries := deliveries } := heq
    rw [heq] at hsteps ⊢
    refine ⟨hnow, hkeys, ⟨fun id hid => ?_, fun k hk => ?_⟩⟩
    · obtain ⟨d, hd, hsent⟩ := hholds.printed id hid
      obtain ⟨d', hd', hstep⟩ := hsteps.step id d hd
      exact ⟨d', hd', (hstep.spares hr).1 hsent⟩
    · obtain ⟨d, hd, hvenue, hclaimed, hadapter, hat⟩ := hholds.held k hk
      obtain ⟨d', hd', hstep⟩ := hsteps.step k.id d hd
      obtain rfl : d' = d := (hstep.spares hr).2 hclaimed hadapter (fun hsweep hstale => by
        rcases hintime hsweep with rfl | hle
        · cases hk
        · rcases hstale with hnone | ⟨t, ht, hlt⟩
          · rw [hat] at hnone
            cases hnone
          · rw [hat] at ht
            cases ht
            exact absurd hlt (Int.not_lt.mpr (Int.sub_right_le_of_le_add (hnow.le.trans hle))))
      exact ⟨d', hd', hvenue, hclaimed, hadapter, hat⟩

/-- **An ack alone** of the first of the batch. -/
theorem Holds.acked {h : Handed} {rest : List Handed} (hholds : Holds config (h :: rest) claimedAt printed w)
    (hnodup : ((h :: rest).map Handed.id).Nodup) (err : Option Text) :
    Holds config rest claimedAt (if err.isNone then h.id :: printed else printed)
      (w.after (postAck (some config.key) (ackBody h.id err))) := by
  obtain ⟨d, hd, hvenue, hclaimed, _⟩ := hholds.held h List.mem_cons_self
  have hsettles : w.Settles (some config.key) h.id := by
    refine ⟨d.venueId, d, hvenue, ?_, hclaimed⟩
    unfold World.deliveryOf
    rw [hd, Option.filter_some, if_pos (beq_self_eq_true d.venueId)]
  rcases after_postAck w (some config.key) (ackBody h.id err) rfl with ⟨hnot, _⟩ | ⟨d₁, _, hd₁, _, heq⟩
  · exact absurd hsettles hnot
  rw [heq]
  have hget : ∀ id, (w.settled h.id (ackBody h.id err) d₁).posDeliveries.get? id
      = (w.posDeliveries.get? id).map (fun d => if id = h.id then settle (ackBody h.id err) d₁.attempts d
        else d) := fun id => Rows.get?_updateAt _ _ _ id
  have hother : ∀ id d, w.posDeliveries.get? id = some d → id ≠ h.id →
      (w.settled h.id (ackBody h.id err) d₁).posDeliveries.get? id = some d := by
    intro id d hd hne
    rw [hget, hd, Option.map_some, if_neg hne]
  have hold : ∀ id ∈ printed, ∃ d, (w.settled h.id (ackBody h.id err) d₁).posDeliveries.get? id = some d
      ∧ d.status = .sent := by
    intro id hid
    obtain ⟨d', hd', hsent⟩ := hholds.printed id hid
    refine ⟨d', hother id d' hd' ?_, hsent⟩
    -- the delivery settled was claimed
    rintro rfl
    rw [hd] at hd'
    cases hd'
    rw [hclaimed] at hsent
    cases hsent
  constructor
  · intro id hid
    by_cases herr : err.isNone = true
    · rw [if_pos herr] at hid
      rcases List.mem_cons.mp hid with rfl | hid
      · refine ⟨_, by rw [hget, hd, Option.map_some, if_pos rfl], ?_⟩
        unfold settle ackBody
        rw [if_pos herr]
      · exact hold id hid
    · rw [if_neg herr] at hid
      exact hold id hid
  · intro k hk
    obtain ⟨d', hd', hvenue', hrest⟩ := hholds.held k (List.mem_cons_of_mem _ hk)
    refine ⟨d', hother k.id d' hd' (fun heqid => ?_), hvenue', hrest⟩
    exact (List.nodup_cons.mp hnodup).1 (heqid ▸ List.mem_map_of_mem hk)

/-- What a poll hands out under a fresh id it has just claimed. -/
theorem claimedUnder_claimBatch {venueId : Id} {claimId : ℕ} {h : Handed}
    (hfresh : w.freshClaim claimId = true)
    (hmem : h ∈ (w.claimBatch venueId claimId).claimedUnder claimId) :
    ∃ d, w.posDeliveries.get? h.id = some d
      ∧ claimable venueId (w.now - CLAIM_TIMEOUT_MS) d = true
      ∧ (w.claimBatch venueId claimId).posDeliveries.get? h.id = some (claim w.now claimId d) := by
  obtain ⟨d', hd', hclaim, _⟩ := mem_claimedUnder hmem
  obtain ⟨d, hd, rfl | ⟨hclaimable, rfl⟩⟩ := get?_claimBatch hd'
  · have hnone := Rows.count_eq_zero (beq_iff_eq.mp hfresh) hd
    rw [hclaim, beq_self_eq_true] at hnone
    cases hnone
  · exact ⟨d, hd, hclaimable, hd'⟩

/-- A sent row is not claimed. -/
theorem claimBatch_sent {venueId id : Id} {claimId : ℕ} {d : PosDelivery}
    (hd : w.posDeliveries.get? id = some d) (hsent : d.status = .sent) :
    (w.claimBatch venueId claimId).posDeliveries.get? id = some d := by
  show (w.posDeliveries.update _ _).get? id = some d
  rw [Rows.get?_update, hd, Option.map_some]
  split
  · next hc =>
    rcases claimable_cases (Bool.and_eq_true_iff.mp hc).2 with hpending | ⟨hclaimed, _⟩
    · rw [hsent] at hpending
      cases hpending
    · rw [hsent] at hclaimed
      cases hclaimed
  · rfl

theorem nodup_claimedUnder (w : World) (claimId : ℕ) : ((w.claimedUnder claimId).map Handed.id).Nodup := by
  have hrows : ((orderBy (fun d : Id × PosDelivery => d.2.createdAt)
      (w.posDeliveries.filter (fun _ d => d.claimId == some claimId))).map Prod.fst).Nodup :=
    ((orderBy_perm _ _).map Prod.fst).nodup_iff.mpr
      (w.posDeliveries.nodup_keys.sublist (List.filter_sublist.map Prod.fst))
  have hid : ∀ r h, w.hand r = some h → h.id = r.1 := by
    intro r h hr
    unfold World.hand at hr
    split at hr
    · cases hr
    · obtain ⟨t, _, rfl⟩ := Option.map_eq_some_iff.mp hr
      rfl
  refine List.pairwise_map.mpr (List.pairwise_filterMap.mpr ((List.pairwise_map.mp hrows).imp ?_))
  intro r r' hne h hh h' hh'
  rw [hid r h hh, hid r' h' hh']
  exact hne

end

/-! ## Every run -/

section

variable {config : AgentConfig} {s : AtWork}

theorem AtWork.healthy_idle (config : AgentConfig) (w : World) : Healthy config (idle w) where
  holds := ⟨fun _ hid => absurd hid List.not_mem_nil, fun _ hh => absurd hh List.not_mem_nil⟩
  nodup := List.nodup_nil

/-- **A poll hands out nothing that is printed**, and the agent and the server agree on
what it does. -/
theorem Healthy.poll (h : Healthy config s) (claimId : ℕ) :
    Healthy config (s.poll config claimId).1
      ∧ ∀ d ∈ (s.poll config claimId).2, d.id ∉ s.printed := by
  unfold AtWork.poll
  split
  · next hcan =>
    obtain ⟨_, hfresh⟩ := Bool.and_eq_true_iff.mp hcan
    rcases polled_cases s.world (some config.key) claimId with heq | ⟨venueId, hvenue, heq⟩
    · rw [heq]
      exact ⟨⟨⟨h.holds.printed, fun k hk => absurd hk List.not_mem_nil⟩, List.nodup_nil⟩,
        fun d hd => absurd hd List.not_mem_nil⟩
    · rw [heq]
      refine ⟨⟨⟨fun id hid => ?_, fun k hk => ?_⟩, nodup_claimedUnder _ _⟩, fun k hk hprinted => ?_⟩
      · obtain ⟨d, hd, hsent⟩ := h.holds.printed id hid
        exact ⟨d, claimBatch_sent hd hsent, hsent⟩
      · obtain ⟨d, hd, hclaimable, hd'⟩ := claimedUnder_claimBatch hfresh hk
        simp only [claimable, Bool.and_eq_true, beq_iff_eq] at hclaimable
        exact ⟨_, hd', by rw [← hclaimable.1.1.1] at hvenue; exact hvenue, rfl, hclaimable.1.1.2, rfl⟩
      · obtain ⟨d, hd, hsent⟩ := h.holds.printed k.id hprinted
        obtain ⟨d₁, hd₁, hclaimable, _⟩ := claimedUnder_claimBatch hfresh hk
        rw [hd] at hd₁
        cases hd₁
        rcases claimable_cases hclaimable with hpending | ⟨hclaimed, _⟩
        · rw [hsent] at hpending
          cases hpending
        · rw [hsent] at hclaimed
          cases hclaimed
  · exact ⟨h, fun d hd => absurd hd List.not_mem_nil⟩

/-- **One turn.** -/
theorem Healthy.take (h : Healthy config s) {t : AgentTurn} (hintime : s.sweptInTime t = true) :
    Healthy config (s.take config t) := by
  cases t with
  | poll claimId => exact (h.poll claimId).1
  | finish err =>
    show Healthy config (s.finish config err)
    unfold AtWork.finish
    split
    · exact h
    · next d rest hbatch =>
      have hholds := h.holds
      have hnodup := h.nodup
      rw [hbatch] at hholds hnodup
      exact ⟨hholds.acked hnodup err, (List.nodup_cons.mp hnodup).2⟩
  | sweep =>
    have hbatch : s.batch = [] ∨ s.world.now ≤ s.claimedAt + CLAIM_TIMEOUT_MS := by
      rcases Bool.or_eq_true_iff.mp hintime with hempty | hle
      · exact .inl (List.isEmpty_iff.mp hempty)
      · exact .inr (of_decide_eq_true hle)
    have hcalls : sweepPosDeliveries.Calls Call.OutboxWork (fun _ => True) :=
      Prog.calls_mono sweepPosDeliveries_calls (fun _ h => h.outboxWork) (fun _ h => h)
    show Healthy config { s with world := s.world.after sweepPosDeliveries }
    exact ⟨h.holds.after (.inl rfl) (sweepPosDeliveries_ok rfl) hcalls (fun _ => hbatch), h.nodup⟩
  | enqueue j =>
    show Healthy config { s with world := s.world.after (enqueuePosDelivery j.orderId j.amendment) }
    exact ⟨h.holds.after (.inr ⟨j, rfl⟩) (enqueuePosDelivery_ok j.orderId j.amendment)
      (enqueuePosDelivery_calls j.orderId j.amendment) (fun hsweep => by cases hsweep), h.nodup⟩
  | wait ms =>
    show Healthy config (s.wait config ms)
    unfold AtWork.wait
    split
    · exact ⟨⟨h.holds.printed, h.holds.held⟩, h.nodup⟩
    · exact h

theorem Healthy.turns {ts : List AgentTurn} (h : Healthy config s)
    (hintime : AtWork.InTime config s ts = true) : Healthy config (s.turns config ts) := by
  induction ts generalizing s with
  | nil => exact h
  | cons t ts ih =>
    obtain ⟨ht, hts⟩ := Bool.and_eq_true_iff.mp hintime
    exact ih (h.take ht) hts

end

/-- **Nothing is printed twice.** In every run of an agent that never crashes in which no
sweep is too late for the batch the agent is at work on, no poll hands out a delivery
that was printed and reported so. -/
theorem printed_once (config : AgentConfig) (w₀ : World) (ts : List AgentTurn) (claimId : ℕ)
    (h : AtWork.InTime config (AtWork.idle w₀) ts = true) :
    ∀ d ∈ (((AtWork.idle w₀).turns config ts).poll config claimId).2,
      d.id ∉ ((AtWork.idle w₀).turns config ts).printed :=
  (((AtWork.healthy_idle config w₀).turns h).poll claimId).2

/-! ### A batch of seven -/

/-- A venue with seven tickets pending. -/
def sevenTickets : World :=
  { kitchenBehindBridge with
    posDeliveries := Rows.ofList (List.replicate 7 ⟨0, 0, .escpos_bridge, .pending, 0, none, none,
      none, .escPos ⟨[], [], [], 1, 0, [], 0, none⟩, 0⟩) }

/-- A network printer. -/
def networkPrinter : AgentConfig := ⟨[], false, 30000⟩

/-- Each print takes ten seconds. The sweep runs while the seventh is at the printer. -/
def slowPrints : List AgentTurn :=
  [.poll 1] ++ (List.replicate 6 [.wait 10000, .finish none]).flatten
    ++ [.wait 1, .sweep, .finish none]

/-- **A ticket can be printed twice**: what was printed and reported is handed out
again. -/
theorem printed_once_fails :
    ¬ ∀ (config : AgentConfig) (w₀ : World) (ts : List AgentTurn) (claimId : ℕ),
      ∀ d ∈ (((AtWork.idle w₀).turns config ts).poll config claimId).2,
        d.id ∉ ((AtWork.idle w₀).turns config ts).printed := by
  intro h
  have hagain : ((((AtWork.idle sevenTickets).turns networkPrinter slowPrints).poll networkPrinter
      2).2.map Handed.id) = [6] := by decide
  have hprinted : 6 ∈ ((AtWork.idle sevenTickets).turns networkPrinter slowPrints).printed := by decide
  obtain ⟨d, hd, hid⟩ := List.mem_map.mp (hagain ▸ List.mem_singleton.mpr rfl)
  exact h networkPrinter sevenTickets slowPrints 2 d hd (hid ▸ hprinted)

/-- The first print fails, and the others take eight seconds each. -/
def firstFails : List AgentTurn :=
  [.poll 1, .wait 8000, .finish (some [])]
    ++ (List.replicate 6 [.wait 8000, .sweep, .finish none]).flatten

/-- The next poll hands out the first again, and nothing that was printed. -/
theorem printed_once_retried :
    (((AtWork.idle sevenTickets).turns networkPrinter firstFails).poll networkPrinter 2).2.map
        Handed.id = [0]
      ∧ ∀ d ∈ (((AtWork.idle sevenTickets).turns networkPrinter firstFails).poll networkPrinter 2).2,
        d.id ∉ ((AtWork.idle sevenTickets).turns networkPrinter firstFails).printed :=
  ⟨by decide, printed_once networkPrinter sevenTickets firstFails 2 (by decide)⟩

end Masadan
