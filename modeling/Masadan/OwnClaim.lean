import Masadan.BridgeTurns

/-!
# An ack and the claim it is for

A claim that is not acked in time is taken to be dead, and the delivery is claimed
again. The agent may be alive all the same, and its ack on the way; it is for a claim
that has been replaced, and has to leave the new one alone.

An ack names a delivery, and not the claim it was printed under. The handler lets it
settle whatever claim it finds: a delivery another agent is printing is settled by the
ack of the one before (`ack_own_claim_fails`). It is ignored when the delivery is not
claimed at all, and only then (`ack_own_claim`).
-/

namespace Masadan

/-- A request of the bridge, served to its end; or time passing. -/
inductive BridgeTurn where
  | poll (key : Option Text) (claimId : ℕ)
  /-- The ack of a print made under a claim. The claim is not sent along. -/
  | ack (key : Option Text) (claimId : ℕ) (body : AckBody)
  | sweep
  | wait (ms : ℕ)

def BridgeTurn.take : BridgeTurn → World → World
  | .poll key claimId, w => w.after (getPending key claimId)
  | .ack key _ body, w => w.after (postAck key body)
  | .sweep, w => w.after sweepPosDeliveries
  | .wait ms, w => { w with now := w.now + ms }

/-- The world after a sequence of turns. -/
def World.bridgeTurns (w : World) (turns : List BridgeTurn) : World :=
  turns.foldl (fun w t => t.take w) w

/-- The turns that give a claim up: the sweep, and a poll that claims a stale row. -/
def BridgeTurn.expires : BridgeTurn → Bool
  | .poll _ _ | .sweep => true
  | _ => false

/-- **The claim has expired and been replaced**: it was given up, and the delivery is
claimed under another since. -/
def Superseded (w₀ : World) (turns : List BridgeTurn) (claimId : ℕ) (id : Id) : Prop :=
  ∃ pre a mid post claimId', turns = pre ++ a :: (mid ++ post) ∧ a.expires = true
    ∧ (w₀.bridgeTurns pre).ClaimedUnder claimId id
    ∧ ¬ (w₀.bridgeTurns (pre ++ [a])).ClaimedUnder claimId id
    ∧ claimId' ≠ claimId ∧ (w₀.bridgeTurns (pre ++ a :: mid)).ClaimedUnder claimId' id

/-- **An ack that comes too late**, in the world it is served in: it is for a claim of the
delivery that has been replaced. -/
def LateAck (w₀ : World) (turns : List BridgeTurn) (w : World) (key : Option Text) (body : AckBody)
    (id : Id) : Prop :=
  ∃ pre claimId post, turns = pre ++ .ack key claimId body :: post ∧ w = w₀.bridgeTurns pre
    ∧ body.deliveryId = some id ∧ Superseded w₀ pre claimId id

/-- What a claim is, in the row. -/
def World.claimState (w : World) (id : Id) :
    Option (DeliveryStatus × Option ℕ × Option Time × Option Text) :=
  (w.posDeliveries.get? id).map (fun d => (d.status, d.claimId, d.claimedAt, d.lastError))

theorem settle_not_claimed (body : AckBody) (attempts : ℕ) (d : PosDelivery) :
    (settle body attempts d).status ≠ .claimed := by
  unfold settle
  split
  · exact DeliveryStatus.noConfusion
  · dsimp only
    split
    · exact DeliveryStatus.noConfusion
    · exact DeliveryStatus.noConfusion

/-- **An ack leaves a claim alone exactly when it settles none.** -/
theorem postAck_unchanged_iff {w : World} {key : Option Text} {body : AckBody} {id : Id}
    (hid : body.deliveryId = some id) :
    (w.after (postAck key body)).claimState id = w.claimState id ↔ ¬ w.Settles key id := by
  rcases after_postAck w key body hid with ⟨hnot, heq⟩ | ⟨d, hsettles, hd, hclaimed, heq⟩
  · rw [heq]
    exact iff_of_true rfl hnot
  · refine iff_of_false (fun hsame => ?_) (not_not.mpr hsettles)
    have hafter : (w.settled id body d).posDeliveries.get? id = some (settle body d.attempts d) := by
      show (w.posDeliveries.updateAt id _).get? id = _
      rw [Rows.get?_updateAt, hd, Option.map_some, if_pos rfl]
    unfold World.claimState at hsame
    rw [heq, hafter, hd, Option.map_some, Option.map_some] at hsame
    have hstatus := congrArg Prod.fst (Option.some.inj hsame)
    exact settle_not_claimed body d.attempts d (hstatus.trans hclaimed)

/-- **A late ack leaves the newer claim alone**, in a run, if and only if no late ack of
the run finds the delivery claimed. -/
theorem ack_own_claim (w₀ : World) (turns : List BridgeTurn) :
    (∀ w key body id, LateAck w₀ turns w key body id →
        (w.after (postAck key body)).claimState id = w.claimState id)
      ↔ ∀ w key body id, LateAck w₀ turns w key body id → ¬ w.Settles key id := by
  have hiff : ∀ w key body id, LateAck w₀ turns w key body id →
      ((w.after (postAck key body)).claimState id = w.claimState id ↔ ¬ w.Settles key id) := by
    rintro w key body id ⟨_, _, _, _, _, hid, _⟩
    exact postAck_unchanged_iff hid
  constructor
  · exact fun h w key body id hlate => (hiff w key body id hlate).mp (h w key body id hlate)
  · exact fun h w key body id hlate => (hiff w key body id hlate).mpr (h w key body id hlate)

/-! ### An agent given up too early -/

/-- The first agent is slow; its claim is swept, and a second one claims the delivery.
Then the first has printed. -/
def slowAgent : List BridgeTurn :=
  [.poll (some []) 1, .wait 60001, .sweep, .poll (some []) 2, .ack (some []) 1 ⟨some 0, true, none⟩]

/-- **A late ack can settle a claim it is not for.** -/
theorem ack_own_claim_fails :
    ¬ ∀ (w₀ : World) (turns : List BridgeTurn) w key body id, LateAck w₀ turns w key body id →
      (w.after (postAck key body)).claimState id = w.claimState id := by
  intro h
  have hsuperseded : Superseded kitchenBehindBridge (slowAgent.take 4) 1 0 := by
    refine ⟨slowAgent.take 2, .sweep, [.poll (some []) 2], [], 2, rfl, rfl, ⟨_, rfl, rfl, rfl⟩, ?_,
      by decide, ⟨_, rfl, rfl, rfl⟩⟩
    rintro ⟨d, hd, hclaimed, _⟩
    cases hd
    cases hclaimed
  have hsame := h kitchenBehindBridge slowAgent _ (some []) ⟨some 0, true, none⟩ 0
    ⟨slowAgent.take 4, 1, [], rfl, rfl, rfl, hsuperseded⟩
  exact absurd hsame (by decide)

end Masadan
