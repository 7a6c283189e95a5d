import Masadan.Deliveries

/-!
# The bridge, one request at a time

What a poll, an ack and the sweep do when each is served to its end before the next:
a poll claims what is claimable and hands out its claim, and an ack settles the row it
names if that is claimed, under whichever claim.
-/

namespace Masadan

/-! ## A poll -/

/-- The venue of a bridge key. -/
def World.keyVenue (w : World) (key : Option Text) : Option Id :=
  key.bind (fun keyHash => (w.bridgeKeys.find? (fun _ k => k.keyHash == keyHash)).map
    (fun k => k.2.venueId))

/-- The world after a poll, and what the poll has handed out. -/
def World.polled (w : World) (key : Option Text) (claimId : ℕ) : World × List Handed :=
  match (getPending key claimId).runAlone (World.exec plain) w with
  | (w', .ok (.deliveries handed)) => (w', handed)
  | (w', _) => (w', [])

/-- What a poll of the venue writes. -/
def World.claimBatch (w : World) (venueId : Id) (claimId : ℕ) : World :=
  { w with
    posDeliveries := w.posDeliveries.update
      (fun id d => (w.claimCandidates venueId (w.now - CLAIM_TIMEOUT_MS)).contains id
        && claimable venueId (w.now - CLAIM_TIMEOUT_MS) d) (claim w.now claimId) }

theorem venueForBridgeKey_alone {α : Type} {Q : World → Except DbError α → Prop} {w : World}
    {key : Option Text} {f : Option Id → Api α} (h : Alone Q (f (w.keyVenue key)) w) :
    Alone Q ((venueForBridgeKey key).bind f) w := by
  cases key with
  | none => exact h
  | some keyHash => exact h

theorem getPending_alone (w : World) (key : Option Text) (claimId : ℕ) :
    Alone (fun w' x => (w' = w ∧ ∀ handed, x = .ok (.deliveries handed) → handed = [])
      ∨ ∃ venueId, w.keyVenue key = some venueId ∧ w' = w.claimBatch venueId claimId
        ∧ x = .ok (.deliveries (w'.claimedUnder claimId))) (getPending key claimId) w := by
  unfold getPending
  refine venueForBridgeKey_alone ?_
  cases hvenue : w.keyVenue key with
  | none =>
    refine .inl ⟨rfl, fun handed h => ?_⟩
    cases h
  | some venueId =>
    refine alone_query (alone_query ?_)
    split
    · refine .inl ⟨rfl, fun handed h => ?_⟩
      cases h
      rfl
    · exact .inr ⟨venueId, rfl, rfl, rfl⟩

/-- **A poll alone**: it hands nothing out and changes nothing, or claims its batch and
hands that out. -/
theorem polled_cases (w : World) (key : Option Text) (claimId : ℕ) :
    w.polled key claimId = (w, [])
      ∨ ∃ venueId, w.keyVenue key = some venueId
        ∧ w.polled key claimId
          = (w.claimBatch venueId claimId, (w.claimBatch venueId claimId).claimedUnder claimId) := by
  unfold World.polled
  rcases getPending_alone w key claimId with ⟨hw, hx⟩ | ⟨venueId, hvenue, hw, hx⟩
  · left
    generalize (getPending key claimId).runAlone (World.exec plain) w = result at hw hx
    obtain ⟨w', x⟩ := result
    subst hw
    dsimp only at hx ⊢
    split
    · next handed heq =>
      cases heq
      rw [hx handed rfl]
    · next heq =>
      cases heq
      rfl
  · right
    generalize (getPending key claimId).runAlone (World.exec plain) w = result at hw hx
    obtain ⟨w', x⟩ := result
    subst hw
    dsimp only at hx
    subst hx
    exact ⟨venueId, hvenue, rfl⟩

/-- A row of the venue's batch is claimed, under the poll's id, and was claimable. -/
theorem get?_claimBatch {w : World} {venueId id : Id} {claimId : ℕ} {d' : PosDelivery}
    (h : (w.claimBatch venueId claimId).posDeliveries.get? id = some d') :
    ∃ d, w.posDeliveries.get? id = some d
      ∧ (d' = d ∨ (claimable venueId (w.now - CLAIM_TIMEOUT_MS) d = true
        ∧ d' = claim w.now claimId d)) := by
  replace h : (w.posDeliveries.update _ _).get? id = some d' := h
  rw [Rows.get?_update] at h
  obtain ⟨d, hd, rfl⟩ := Option.map_eq_some_iff.mp h
  refine ⟨d, hd, ?_⟩
  split
  · next hc => exact .inr ⟨(Bool.and_eq_true_iff.mp hc).2, rfl⟩
  · exact .inl rfl

/-! ## An ack -/

/-- **The ack would settle the row**: its key is the venue's, and the row is claimed. -/
def World.Settles (w : World) (key : Option Text) (id : Id) : Prop :=
  ∃ venueId d, w.keyVenue key = some venueId ∧ w.deliveryOf id venueId = some d
    ∧ d.status = .claimed

theorem deliveryOf_spec {w : World} {id venueId : Id} {d : PosDelivery}
    (h : w.deliveryOf id venueId = some d) : w.posDeliveries.get? id = some d ∧ d.venueId = venueId := by
  obtain ⟨hget, hvenue⟩ := Option.filter_eq_some_iff.mp h
  exact ⟨hget, beq_iff_eq.mp hvenue⟩

/-- What an ack leaves of a delivery it settles. -/
def World.settled (w : World) (id : Id) (body : AckBody) (d : PosDelivery) : World :=
  { w with posDeliveries := w.posDeliveries.updateAt id (settle body d.attempts) }

/-- **An ack alone** settles the row it names when that is claimed, and changes nothing
when it is not. -/
theorem after_postAck (w : World) (key : Option Text) (body : AckBody) {id : Id}
    (hid : body.deliveryId = some id) :
    (¬ w.Settles key id ∧ w.after (postAck key body) = w)
      ∨ ∃ d, w.Settles key id ∧ w.posDeliveries.get? id = some d ∧ d.status = .claimed
        ∧ w.after (postAck key body) = w.settled id body d := by
  show Alone (fun w' _ => (¬ w.Settles key id ∧ w' = w) ∨ ∃ d, w.Settles key id
    ∧ w.posDeliveries.get? id = some d ∧ d.status = .claimed ∧ w' = w.settled id body d)
    (postAck key body) w
  unfold postAck
  refine venueForBridgeKey_alone ?_
  cases hvenue : w.keyVenue key with
  | none =>
    refine .inl ⟨?_, rfl⟩
    rintro ⟨venueId, d, hkey, _⟩
    rw [hvenue] at hkey
    cases hkey
  | some venueId =>
    refine alone_query ?_
    rw [hid, Option.bind_some]
    cases hd : w.deliveryOf id venueId with
    | none =>
      refine .inl ⟨?_, rfl⟩
      rintro ⟨venueId', d, hkey, hd', _⟩
      rw [hvenue] at hkey
      cases hkey
      rw [hd] at hd'
      cases hd'
    | some d =>
      obtain ⟨hget, _⟩ := deliveryOf_spec hd
      dsimp only [Option.map_some]
      split
      · next hnot =>
        refine .inl ⟨?_, rfl⟩
        rintro ⟨venueId', d', hkey, hd', hclaimed⟩
        rw [hvenue] at hkey
        cases hkey
        rw [hd] at hd'
        cases hd'
        exact hnot hclaimed
      · next hclaimed =>
        rw [not_not] at hclaimed
        refine alone_write (fun w' x hx => ?_)
        replace hx : w.posDeliveryUpdate id (settle body d.attempts) = (w', x) := hx
        unfold World.posDeliveryUpdate at hx
        rw [hget] at hx
        cases hx
        exact .inr ⟨d, ⟨venueId, d, hvenue, hd, hclaimed⟩, hget, hclaimed, rfl⟩

end Masadan
