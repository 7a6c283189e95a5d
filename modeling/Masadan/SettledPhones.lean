import Masadan.Seating

/-!
# The phones of a settled table

Settling a visit revokes the party's sessions, so that their phones order no more. A
scan chooses the visit first and inserts the session some calls later, and the
settlement revokes the sessions it has read before it commits; a session that is
inserted in between is of a visit that is paid, and nobody revokes it.

`settled_phones` is what holds when nobody closes a visit under a scan that is on its way
to it, and nobody is seated between a settlement's look at the sessions and its commit:
from the commit on, no session of the visit is unrevoked, however many phones scan.
`settled_phones_fails` is one phone that scans while the till takes the payment.
-/

namespace Masadan

/-! ## The requests -/

/-- Phones scan, and the till settles. -/
inductive TillRequest where
  | scan (tableId venueId : Id) (token : ℕ)
  | settle (visitId venueId : Id) (input : SettleInput)

inductive TillAnswer where
  | minted (token : ℕ)
  | settled (result : Except SettleError ℤ)

def TillRequest.prog : TillRequest → Api TillAnswer
  | .scan tableId venueId token => TillAnswer.minted <$> mintSession tableId venueId token
  | .settle visitId venueId input => TillAnswer.settled <$> settleVisit visitId venueId input

/-- The server serving these requests. -/
abbrev tillServer : Sys api :=
  server TillRequest.prog (fun _ => true) (fun _ => []) false

/-- A run of these requests, from a world. -/
abbrev tillRun (w₀ : World) (acts : List tillServer.Action) : tillServer.Pool :=
  Sys.Pool.run (Sys.Pool.init w₀ : tillServer.Pool) acts

/-! ## Silence -/

/-- **No phone of the visit can order**: each of its sessions is revoked. -/
def World.Silent (w : World) (visitId : Id) : Prop :=
  ∀ id s, w.tableSessions.get? id = some s → s.visitId = some visitId → s.revokedAt ≠ none

/-- **The party has left**: the visit is closed, if it is still there, and silent. -/
structure Left (visitId : Id) (w : World) : Prop where
  known : visitId < w.tableVisits.next
  closed : ∀ v, w.tableVisits.get? visitId = some v → v.status = .closed
  silent : w.Silent visitId

/-- **What a step does to parties that leave.** -/
structure Leaving (w w' : World) : Prop where
  /-- Who has left has left. -/
  kept : ∀ visitId, Left visitId w → Left visitId w'
  /-- Whose visit is closed has left. -/
  closed : ∀ visitId, ¬ w.VisitClosed visitId → w'.VisitClosed visitId → Left visitId w'
  /-- Sessions stay. -/
  stays : SessionsStay w w'

theorem Leaving.refl (w : World) : Leaving w w :=
  ⟨fun _ h => h, fun _ hopen hclosed => absurd hclosed hopen, SessionsStay.of_eq rfl⟩

/-- Nobody has closed the visit since the request saw it open. -/
def notClosedSince (v : View api World) (tableId visitId : Id) (w : World) : Bool :=
  v.past.all (fun e => !e.after.openAt tableId visitId
    || (w.tableVisits.get? visitId).all (fun visit => visit.status != .closed))

/-- **No phone is missed.** Nobody closes a visit between a scan's look at it and the
insertion of its session; and nobody is seated at it between a settlement's look at the
sessions and its commit: each that is unrevoked then was there when it looked. -/
def nobodyMissed (v : View api World) (op : Call) (w : World) : Bool :=
  match op with
  | .tableSessionCreate data => notClosedSince v data.tableId data.visitId w
  | .settleTransaction visitId _ _ _ _ =>
    (w.unrevokedSessions visitId).all (fun id => (v.since.tableSessions.get? id).isSome)
  | _ => true

/-- Parties leave for good, given that no phone is missed. -/
abbrev tillProtocol : Protocol tillServer where
  Inv _ := True
  Evolves := Leaving
  refl := Leaving.refl
  Guard _ v _ op w := nobodyMissed v op w

theorem notClosed_now {v : View api World} {tableId visitId : Id} {w : World}
    (h : notClosedSince v tableId visitId w = true) (hsaw : SawOpen v tableId visitId) :
    ∀ visit, w.tableVisits.get? visitId = some visit → visit.status ≠ .closed := by
  obtain ⟨e, he, hopen⟩ := hsaw
  have hnot := List.all_eq_true.mp h e he
  rw [hopen, Bool.not_true, Bool.false_or, Option.all_eq_true] at hnot
  exact fun visit hvisit => bne_iff_ne.mp (hnot visit hvisit)

theorem till_stay {w w' : World} (h : tillProtocol.Rely w w') : SessionsStay w w' :=
  h.stable (D := SessionsStay w) (fun _ _ hstep hu => hu.trans hstep.stays) (SessionsStay.of_eq rfl)

/-! ## Each call -/

section

variable {w w' : World} {visitId : Id}

/-- The visits are as they were, and every unrevoked session was one of its visit before. -/
theorem Leaving.of_sessions (hv : w'.tableVisits = w.tableVisits) (hstay : SessionsStay w w')
    (hs : ∀ id s', w'.tableSessions.get? id = some s' → s'.revokedAt = none →
      ∃ s, w.tableSessions.get? id = some s ∧ s.visitId = s'.visitId ∧ s.revokedAt = none) :
    Leaving w w' where
  kept visitId h := by
    refine ⟨hv ▸ h.known, fun v hget => h.closed v (hv ▸ hget), fun id s' hid hof hlive => ?_⟩
    obtain ⟨s, hget, hvisit, hrevoked⟩ := hs id s' hid hlive
    exact h.silent id s hget (hvisit.trans hof) hrevoked
  closed visitId hopen hclosed := by
    unfold World.VisitClosed at hopen hclosed
    rw [hv] at hclosed
    exact absurd hclosed hopen
  stays := hstay

theorem SameRows.leaving (h : SameRows w w') : Leaving w w' := by
  refine Leaving.of_sessions h.tableVisits h.sessionsStay (fun id s' hid hlive => ?_)
  obtain ⟨s, hs, heq⟩ := h.tableSessions id s' hid
  rw [heq] at hlive
  exact ⟨s, hs, by rw [heq], hlive⟩

/-- A new visit is open. -/
theorem leaving_create (w : World) (tableId venueId : Id) :
    Leaving w (w.tableVisitCreate tableId venueId) := by
  have hget : ∀ id v, (w.tableVisitCreate tableId venueId).tableVisits.get? id = some v →
      (id = w.tableVisits.next ∧ v.status = .opened) ∨ w.tableVisits.get? id = some v := by
    intro id v h
    have hnew : (w.tableVisits.create _).get? id = some v := h
    rw [Rows.get?_create] at hnew
    split at hnew
    · next hid =>
      cases hnew
      exact .inl ⟨hid, rfl⟩
    · exact .inr hnew
  refine ⟨fun visitId h => ⟨Nat.lt_succ_of_lt h.known, fun v hv => ?_, h.silent⟩,
    fun visitId hopen => ?_, SessionsStay.of_eq rfl⟩
  · rcases hget visitId v hv with ⟨rfl, _⟩ | hold
    · exact absurd h.known (Nat.lt_irrefl _)
    · exact h.closed v hold
  · rintro ⟨v, hv, hclosed⟩
    rcases hget visitId v hv with ⟨_, hopened⟩ | hold
    · rw [hopened] at hclosed
      cases hclosed
    · exact absurd ⟨v, hold, hclosed⟩ hopen

/-- A visit that is deleted takes its sessions' seats along. -/
theorem leaving_delete (w : World) (id : Id) : Leaving w (w.tableVisitDelete id).1 := by
  unfold World.tableVisitDelete
  split
  · exact Leaving.refl w
  · have hget : ∀ k v, (w.tableVisits.erase (fun k _ => k == id)).get? k = some v →
        w.tableVisits.get? k = some v := by
      intro k v h
      rw [Rows.get?_erase, Option.filter_eq_some_iff] at h
      exact h.1
    refine ⟨fun visitId h => ⟨h.known, fun v hv => h.closed v (hget visitId v hv), ?_⟩,
      fun visitId hopen => ?_, SessionsStay.of_update (p := fun _ s => s.visitId == some id)
        (f := fun s => { s with visitId := none }) rfl (fun s => ⟨.inr rfl, fun hr => hr⟩)⟩
    · intro k s' hk hof
      have hs' : (w.tableSessions.update _ _).get? k = some s' := hk
      rw [Rows.get?_update] at hs'
      obtain ⟨s, hs, hs'⟩ := Option.map_eq_some_iff.mp hs'
      split at hs'
      · subst hs'
        cases hof
      · subst hs'
        exact h.silent k s hs hof
    · rintro ⟨v, hv, hclosed⟩
      exact absurd ⟨v, hget visitId v hv, hclosed⟩ hopen

/-- A session is inserted into a visit that is not closed. -/
theorem leaving_mint {data : NewTableSession}
    (hopened : ∀ v, w.tableVisits.get? data.visitId = some v → v.status ≠ .closed) :
    Leaving w (w.tableSessionCreate data).1 := by
  unfold World.tableSessionCreate
  split
  · exact Leaving.refl w
  · next hthere =>
    refine ⟨fun visitId h => ⟨h.known, h.closed, ?_⟩, fun visitId hopen hclosed =>
      absurd hclosed hopen, fun id s hs =>
        ⟨s, Rows.get?_create_of_some hs, .inl rfl, fun hr => hr⟩⟩
    intro k s hk hof
    have hs : (w.tableSessions.create _).get? k = some s := hk
    rw [Rows.get?_create] at hs
    split at hs
    · cases hs
      cases hof
      cases hv : w.tableVisits.get? data.visitId with
      | none =>
        rw [hv] at hthere
        exact absurd rfl hthere
      | some v =>
        -- the party has left, so the visit is closed, which the scan's is not
        exact absurd (h.closed v hv) (hopened v hv)
    · exact h.silent k s hs hof

/-- Revoking sessions makes no phone heard. -/
theorem leaving_revoke (w : World) (cond : Id → TableSession → Bool) :
    Leaving w { w with tableSessions := w.tableSessions.update cond (revoke w.now) } := by
  exact Leaving.of_sessions rfl (SessionsStay.of_revoke rfl)
    (fun id s' hid hlive => ⟨s', (get?_revoked hid hlive).1, rfl, hlive⟩)

/-- **A settlement revokes the sessions found in a world `u`**: all there are, if nobody has
been seated since. -/
theorem leaving_settle {u : World} {data : Time → TableVisit → TableVisit} {orderIds : List Id}
    {provider : PaymentMethod} (hdata : ∀ now v, (data now v).status = .closed)
    (hstay : SessionsStay u w)
    (hg : (w.unrevokedSessions visitId).all (fun id => (u.tableSessions.get? id).isSome) = true) :
    Leaving w
      (w.settleTransaction visitId data orderIds provider (u.unrevokedSessions visitId)).1 := by
  rcases settleTransaction_cases (Prod.mk.eta
      (p := w.settleTransaction visitId data orderIds provider (u.unrevokedSessions visitId))).symm
    with ⟨h, _⟩ | ⟨v, _, hv, hopen, h⟩
  · rw [h]
    exact Leaving.refl w
  · rw [h]
    have hother : ∀ k v', k ≠ visitId → (w.tableVisits.update (World.closable visitId)
        (data w.now)).get? k = some v' → w.tableVisits.get? k = some v' :=
      fun k v' hk hv' => (get?_closable_other hk).symm.trans hv'
    refine ⟨fun k hleft => ?_, fun k hopen' => ?_, SessionsStay.of_revoke
      (p := fun id _ => (u.unrevokedSessions visitId).contains id) rfl⟩
    · -- a party that has left is not the one that is settled
      have hk : k ≠ visitId := by
        rintro rfl
        exact hopen (hleft.closed v hv)
      exact ⟨hleft.known, fun v' hv' => hleft.closed v' (hother k v' hk hv'),
        fun id s' hid hof hlive => hleft.silent id s' (get?_revoked hid hlive).1 hof hlive⟩
    · rintro ⟨u, hu, hclosed⟩
      by_cases hk : k = visitId
      · subst hk
        have hget := get?_closable (f := data w.now) hv hopen
        have hknown : k < w.tableVisits.next := Rows.lt_next_of_get? hv
        refine ⟨hknown, fun u' hu' => ?_, fun id s' hid hof hlive => ?_⟩
        · have hu'' : (w.tableVisits.update (World.closable k) (data w.now)).get? k = some u' := hu'
          rw [hget] at hu''
          cases hu''
          exact hdata w.now v
        · obtain ⟨hs, hspared⟩ := get?_revoked hid hlive
          -- the session was there when the settlement looked, so it was found
          have hthere := List.all_eq_true.mp hg id (mem_unrevokedSessions hs hof hlive)
          exact hspared (List.contains_iff_mem.mpr (hstay.found hs hof hlive hthere))
      · exact absurd ⟨u, hother k u hk hu, hclosed⟩ hopen'

end

/-! ## The handlers -/

theorem till_allows : AllowsHarmless tillProtocol :=
  fun _ _ _ _ _ _ hsame _ => ⟨trivial, hsame.leaving, trivial⟩

section

variable {r : TillRequest} {v : View api World}

theorem mintSession_till (tableId venueId : Id) (token : ℕ) :
    tillProtocol.Ok r (fun _ _ => True) v (mintSession tableId venueId token) :=
  mintSession_ok till_allows tableId venueId token
    (fun _ w _ => ⟨trivial, leaving_create w tableId venueId, trivial⟩)
    (fun _ w _ id _ _ => ⟨trivial, leaving_delete w id, trivial⟩)
    (fun _ _ _ _ hsaw _ hg => ⟨trivial, leaving_mint (notClosed_now hg hsaw), trivial⟩)
    (fun _ w cond _ => ⟨trivial, leaving_revoke w cond, trivial⟩)

theorem settleVisit_till (visitId venueId : Id) (input : SettleInput) :
    tillProtocol.Ok r (fun _ _ => True) v (settleVisit visitId venueId input) := by
  refine settleVisit_commits till_allows (fun v' w c totalKurus orderIds w' n _ hv hg hx => ?_) venueId
  obtain rfl : _ = w' := congrArg Prod.fst hx
  exact ⟨trivial, leaving_settle (fun _ _ => rfl) (till_stay hv) hg, trivial⟩

end

theorem tillSound : tillProtocol.Sound (fun _ _ _ => True) where
  env e w _ := by
    cases e with
    | tick ms =>
      exact ⟨trivial, Leaving.of_sessions rfl (SessionsStay.of_eq rfl)
        (fun id s hs hlive => ⟨s, hs, rfl, hlive⟩)⟩
    | crash => exact ⟨trivial, Leaving.refl w⟩
  entry r w _ := by
    cases r with
    | scan tableId venueId token => exact Protocol.ok_map (mintSession_till tableId venueId token)
    | settle visitId venueId input => exact Protocol.ok_map (settleVisit_till visitId venueId input)

/-- **Settling a table silences its phones for good**: once a step has closed a visit, no
session of it is unrevoked in any later state, in every run in which no phone is
missed. -/
theorem settled_phones (w₀ : World) (acts : List tillServer.Action)
    (h : Sys.Pool.Meets tillProtocol.cond (Sys.Pool.init w₀) acts = true)
    (pre post : List tillServer.Action) (a : tillServer.Action) (hacts : acts = pre ++ a :: post)
    (visitId : Id) (hopen : ¬ (tillRun w₀ pre).world.VisitClosed visitId)
    (hclosed : (tillRun w₀ (pre ++ [a])).world.VisitClosed visitId) :
    (tillRun w₀ acts).world.Silent visitId := by
  subst hacts
  have hleft : Left visitId (tillRun w₀ (pre ++ [a])).world :=
    (tillSound.run_step trivial h).closed visitId hopen hclosed
  rw [List.append_cons] at h ⊢
  have hlater := tillSound.run_rely trivial h
  exact (hlater.stable (D := Left visitId) (fun _ _ hstep hu => Leaving.kept hstep visitId hu)
    hleft).silent

/-! ## A phone that scans meanwhile -/

/-- A table with an open visit, and nobody at it yet. -/
def tableWaiting : World :=
  { World.blank 0 with
    tables := Rows.ofList [⟨0, [], [], 1, true⟩]
    tableVisits := Rows.ofList [⟨0, 0, .opened, 0, none, none, none, none, none, none, none⟩] }

/-- The till takes the payment of the visit. -/
def payment : List tillServer.Action :=
  .arrive (.settle 0 0 ⟨.cash, none, 0, false⟩) :: List.replicate 4 (.step 0 plain)

/-- A phone looks for its visit before the payment commits, and inserts its session after. -/
def lateScan : List tillServer.Action :=
  [.arrive (.scan 0 0 7), .step 1 plain, .step 0 plain, .step 1 plain]

/-- **A settled visit can have a phone that nobody revoked.** -/
theorem settled_phones_fails :
    ¬ ∀ (w₀ : World) (acts pre post : List tillServer.Action) (a : tillServer.Action),
      acts = pre ++ a :: post → ∀ visitId, ¬ (tillRun w₀ pre).world.VisitClosed visitId →
      (tillRun w₀ (pre ++ [a])).world.VisitClosed visitId →
      (tillRun w₀ acts).world.Silent visitId := by
  intro h
  have hsilent := h tableWaiting (payment ++ lateScan) (payment ++ lateScan.take 2)
    [.step 1 plain] (.step 0 plain) rfl 0 (by decide) (by decide)
  exact hsilent 0 ⟨0, 0, 7, some 0, 0, 0, HARD_CAP_MS, none⟩ (by decide) rfl rfl

/-- A phone that scanned before, up to the commit of the payment. -/
def earlyScan : List tillServer.Action :=
  .arrive (.scan 0 0 7) :: List.replicate 3 (.step 0 plain)
    ++ .arrive (.settle 0 0 ⟨.cash, none, 0, false⟩) :: List.replicate 4 (.step 1 plain)

/-- Its session is among those the payment revokes. -/
theorem settled_phones_early :
    (tillRun tableWaiting (earlyScan ++ [.step 1 plain])).world.Silent 0 := by
  have hsilent := settled_phones tableWaiting (earlyScan ++ [.step 1 plain]) (by decide +kernel)
    earlyScan [] (.step 1 plain) rfl 0 (by decide +kernel) (by decide +kernel)
  exact hsilent

end Masadan
