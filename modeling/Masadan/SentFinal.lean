import Masadan.Deliveries

/-!
# A sent delivery stays sent

A delivery that was printed must not be printed again, so `sent` is meant to be
the last status of a row. A poll claims only what is pending or claimed, the sweep
touches only what is claimed or pending, and an ack looks at the row first and
leaves it alone when it is no longer claimed.

But the ack looks in one call and writes in another, by id alone. Of two acks that
have both looked, the one that reports a failure may write last, and takes back
what the other has settled (`sent_final_fails`). In runs in which no such ack
writes on a row that is sent, sent is final (`sent_final`), and no ack does where the
row is not written between its look and its write (`sent_spared_of_looked`).
-/

namespace Masadan

/-- **An ack of a failed print spares what is sent**: it does not write on it. -/
def sparesSent (r : BridgeRequest) (op : Call) (w : World) : Bool :=
  match r, op with
  | .ack _ body, .posDeliveryUpdate id _ => body.ok || w.deliveryStatus id != some .sent
  | _, _ => true

/-- What the requests promise, no retries among them, when sent rows are spared. -/
abbrev sentProtocol : Protocol (bridgeServer false false) :=
  (deliveryProtocol false false).under (fun r _ _ op w => sparesSent r op w)

/-- A call that spares what is sent, of a request that is no retry, leaves it sent. -/
theorem RowStep.sent {r : BridgeRequest} {op : Call} {w : World} {id : Id} {d d' : PosDelivery}
    (h : RowStep false r op w id d d') (hspares : sparesSent r op w = true)
    (hretry : ∀ staff k, r ≠ .retry staff k) (hrow : w.posDeliveries.get? id = some d)
    (hsent : d.status = .sent) : d'.status = .sent := by
  cases h with
  | same => exact hsent
  | claimed hr hclaimable hstale =>
    -- a sent row is not claimable
    rcases claimable_cases hclaimable with h | ⟨h, _⟩
    · rw [hsent] at h
      cases h
    · rw [hsent] at h
      cases h
  | settled hr hid hop =>
    subst hr hop
    unfold sparesSent at hspares
    dsimp only at hspares
    rw [deliveryStatus_eq_some.mpr ⟨d, hrow, hsent⟩, bne_self_eq_false, Bool.or_false] at hspares
    unfold settle
    rw [if_pos hspares]
  | retried hr => exact absurd hr (hretry _ _)
  | expired hr hclaimed =>
    rw [hsent] at hclaimed
    cases hclaimed
  | exhausted hr hpending =>
    rw [hsent] at hpending
    cases hpending
  | pushed hadapter => rfl
  | refused hadapter hrough => cases hrough

/-- **Sent is final**, in every run of polls, acks, sweeps and pushes in which no ack of
a failed print writes on a row that is sent. -/
theorem sent_final (w₀ : World) (pre post : List (bridgeServer false false).Action)
    (h : Sys.Pool.Meets sentProtocol.cond (Sys.Pool.init w₀) (pre ++ post) = true) (id : Id)
    (hsent : (bridgeRun false false w₀ pre).world.deliveryStatus id = some .sent) :
    (bridgeRun false false w₀ (pre ++ post)).world.deliveryStatus id = some .sent := by
  have hS := (deliverySound false false).under (fun r _ _ op w => sparesSent r op w)
  by_contra hnot
  -- some action of the rest takes it back
  rw [bridgeRun, Sys.Pool.run_append] at hnot
  obtain ⟨mid, a, rest, rfl, hmid, hleft⟩ := Sys.Pool.exists_leaving
    (I := fun p : (bridgeServer false false).Pool => p.world.deliveryStatus id = some .sent)
    hsent hnot
  rw [← List.append_assoc, Sys.Pool.meets_append, Sys.Pool.meets_cons] at h
  rw [Sys.Pool.run_concat] at hleft
  rw [← Sys.Pool.run_append] at hmid hleft
  have hok : sentProtocol.PoolOk bridgePost w₀ (bridgeRun false false w₀ (pre ++ mid)) :=
    hS.run trivial h.1
  obtain ⟨d, hd, hs⟩ := deliveryStatus_eq_some.mp hmid
  rcases hok.act_cases h.2.1 with hsame | ⟨e, rfl, henv⟩ | ⟨i, c, t, op, k, rfl, ht, _, _, hg, htakes⟩
  · rw [hsame] at hleft
    exact hleft hmid
  · rw [henv] at hleft
    cases e with
    | tick ms => exact hleft hmid
    | crash => exact hleft hmid
  · obtain ⟨d', hd', hstep⟩ := htakes.here.step id d hd
    refine hleft (deliveryStatus_eq_some.mpr ⟨d', hd', hstep.sent ?_ ?_ hd hs⟩)
    · exact ((deliveryProtocol false false).under_guard.mp hg).2
    · exact no_retry (List.mem_of_getElem? ht)

/-! ## The look of the ack itself -/

/-- What is asked of an ack's write: the ack has just found the row claimed. -/
abbrev lookProtocol : Protocol (bridgeServer false false) :=
  .checking (fun r v op => ∀ key body, r = .ack key body → ∀ id data,
    op = .posDeliveryUpdate id data → v.since.deliveryStatus id = some .claimed)

theorem look_allows : AllowsHarmless lookProtocol := by
  intro r v w w' op hop _ _
  refine ⟨trivial, trivial, fun _ _ _ id data h => ?_⟩
  subst h
  exact hop.elim

theorem postAck_looks {r : BridgeRequest} {v : View api World} (key : Option Text)
    (body : AckBody) : lookProtocol.Ok r (fun _ _ => True) v (postAck key body) := by
  unfold postAck
  have hkey : (venueForBridgeKey key).Calls Call.Harmless (fun _ => True) := by
    cases key with
    | none => exact trivial
    | some keyHash => exact Prog.calls_perform (S := api) trivial
  refine ok_harmless_bind look_allows hkey (fun v₁ found _ _ _ => ?_) (fun _ _ _ _ => trivial)
  cases found with
  | none => exact trivial
  | some venueId =>
    refine ok_query look_allows _ (fun w₁ _ _ => ?_)
    split
    · exact trivial
    · next id delivery hfound =>
      obtain ⟨id', _, hrow⟩ := Option.bind_eq_some_iff.mp hfound
      obtain ⟨d, hd, heq⟩ := Option.map_eq_some_iff.mp hrow
      obtain ⟨rfl, rfl⟩ := Prod.mk.inj heq
      split
      · exact trivial
      · next hclaimed =>
        refine ok_write (fun w c w' x _ _ _ _ =>
          ⟨⟨trivial, trivial, fun _ _ _ k data h => ?_⟩, ?_⟩)
        · cases h
          exact deliveryStatus_eq_some.mpr ⟨d, (Option.filter_eq_some_iff.mp hd).1,
            not_not.mp hclaimed⟩
        · cases x with
          | ok _ => exact trivial
          | error _ => exact trivial

/-- **An ack writes on what it has found claimed.** -/
theorem lookSound : lookProtocol.Sound (fun _ _ _ => True) where
  env _ _ _ := ⟨trivial, trivial⟩
  entry r w _ := by
    cases r with
    | ack key body => exact Protocol.ok_map (postAck_looks key body)
    | _ => exact Protocol.ok_checking (fun _ _ _ _ h => by cases h) (fun _ _ => trivial)

/-- **The row is not written between** an ack's look and its write. -/
def RowAsLooked (r : BridgeRequest) (v : View api World) (op : Call) (w : World) : Prop :=
  ∀ key body, r = .ack key body → ∀ id data, op = .posDeliveryUpdate id data →
    w.posDeliveries.get? id = v.since.posDeliveries.get? id

/-- **Where no row is written between, every ack spares what is sent.** -/
theorem sent_spared_of_looked (w₀ : World) (acts : List (bridgeServer false false).Action)
    (h : Protocol.Finds RowAsLooked (Sys.Pool.init w₀) acts) :
    Sys.Pool.Meets sentProtocol.cond (Sys.Pool.init w₀) acts = true := by
  refine lookSound.meets_of_finds trivial (fun _ _ _ _ _ => rfl) ?_ h
  intro r v c op w htakes hsame
  refine (deliveryProtocol false false).under_guard.mpr ⟨rfl, ?_⟩
  unfold sparesSent
  split
  · next key body id data =>
    have hclaimed : w.deliveryStatus id = some .claimed := by
      unfold World.deliveryStatus
      rw [hsame key body rfl id data rfl]
      exact htakes.here key body rfl id data rfl
    rw [hclaimed]
    exact Bool.or_true _
  · rfl

/-! ## Two acks -/

/-- Both report: the first has failed, the second has printed. Both acks look before
either writes, and the failure writes last. -/
def bothReport : List (bridgeServer false false).Action :=
  [.arrive (.ack (some []) ⟨some 0, false, none⟩), .arrive (.ack (some []) ⟨some 0, true, none⟩),
    .step 2 plain, .step 2 plain, .step 3 plain, .step 3 plain, .step 3 plain, .step 2 plain]

/-- **A sent delivery can be taken back**: by an ack that has looked before it was
sent. -/
theorem sent_final_fails :
    ¬ ∀ (w₀ : World) (pre post : List (bridgeServer false false).Action) (id : Id),
      (bridgeRun false false w₀ pre).world.deliveryStatus id = some .sent →
      (bridgeRun false false w₀ (pre ++ post)).world.deliveryStatus id = some .sent := by
  intro h
  have hsent := h kitchenBehindBridge (claimedTwice ++ bothReport.take 7) (bothReport.drop 7) 0
    (by decide)
  exact absurd hsent (by decide)

/-- A printed delivery stays sent when the other ack comes later. -/
theorem sent_final_late :
    (bridgeRun false false kitchenBehindBridge (claimedTwice
      ++ [.arrive (.ack (some []) ⟨some 0, true, none⟩), .step 2 plain, .step 2 plain, .step 2 plain]
      ++ [.arrive (.ack (some []) ⟨some 0, false, none⟩), .step 3 plain,
        .step 3 plain])).world.deliveryStatus 0 = some .sent :=
  sent_final kitchenBehindBridge _ _ (by decide) 0 (by decide)

end Masadan
