import Mathlib.Data.List.Sort
import Masadan.Debts
import Masadan.Handlers
import Masadan.History

/-!
# Six phones at a table

A table of friends may each scan, and the table's sessions are capped. A scan inserts its own
session first and makes room afterwards: it lists the sessions that are live, newest first, and
revokes those that come after the sixth. When it revokes, its listing is old, and other scans
have listed and revoked in between.

A session is crowded out when six that are live come before it. Time and revocations only take
sessions from the list, so what crowds a session out is an insertion; and who inserts is about to
list, and to revoke every session it then finds crowded out. That is a `Debt` for each session,
and when nobody owes one any more, no session is crowded out (`six_phones`).
-/

namespace Masadan

/-! ## The requests -/

inductive RevokeAnswer where
  | unauthorized
  | not_found
  | ok
  deriving DecidableEq, Repr

/-- **`DELETE /api/admin/sessions/[id]`.** -/
def deleteSession (staff : Option StaffClaims) (id : Id) : Api RevokeAnswer := do
  match staff with
  | none => return .unauthorized
  | some staff =>
    let session ← query (fun w =>
      (w.tableSessions.get? id).filter (fun s => s.venueId == staff.venueId))
    match session with
    | none => return .not_found
    | some _ =>
      let _ ← perform (.tableSessionUpdate id revoke)
      let _ ← perform (.publish (.session_revoked staff.venueId id))
      return .ok

/-- Phones scan and show their cookies, and whatever revokes sessions. -/
inductive PhonesRequest where
  | scan (tableId venueId : Id) (token : ℕ)
  | validate (cookie : Option ℕ) (expected : Option Text)
  | revoke (staff : Option StaffClaims) (id : Id)
  | patch (staff : Option StaffClaims) (id : Id) (body : TablePatch)
  | rotate (venueId : Id) (secret : Text)
  | settle (visitId venueId : Id) (input : SettleInput)
  | sweep

inductive PhonesAnswer where
  | minted (token : ℕ)
  | validated (session : Option ActiveSession)
  | revoked (answer : RevokeAnswer)
  | patched (answer : TableAnswer)
  | rotated (count : ℕ)
  | settled (result : Except SettleError ℤ)
  | swept (count : ℕ)

def PhonesRequest.prog : PhonesRequest → Api PhonesAnswer
  | .scan tableId venueId token => PhonesAnswer.minted <$> mintSession tableId venueId token
  | .validate cookie expected => PhonesAnswer.validated <$> getActiveSession cookie expected
  | .revoke staff id => PhonesAnswer.revoked <$> deleteSession staff id
  | .patch staff id body => PhonesAnswer.patched <$> patchTable staff id body
  | .rotate venueId secret => PhonesAnswer.rotated <$> rotateQrSecret venueId secret
  | .settle visitId venueId input => PhonesAnswer.settled <$> settleVisit visitId venueId input
  | .sweep => PhonesAnswer.swept <$> closeAbandonedVisits

/-- The request mints a session of the table. -/
def PhonesRequest.scans (tableId : Id) : PhonesRequest → Bool
  | .scan t _ _ => t == tableId
  | _ => false

/-- The server serving these requests. -/
abbrev phonesServer : Sys api :=
  server PhonesRequest.prog (fun _ => true) (fun _ => []) false

/-- A run of these requests, from a world. -/
abbrev phonesRun (w₀ : World) (acts : List phonesServer.Action) : phonesServer.Pool :=
  Sys.Pool.run (Sys.Pool.init w₀ : phonesServer.Pool) acts

/-! ## The newest first -/

section

variable {α β : Type} {key : α → ℤ}

theorem orderByDesc_pairwise (key : α → ℤ) (l : List α) :
    (orderByDesc key l).Pairwise (fun a b => key b ≤ key a) := by
  have htotal : Std.Total (fun a b : α => key b ≤ key a) := ⟨fun a b => Int.le_total (key b) (key a)⟩
  have htrans : IsTrans α (fun a b : α => key b ≤ key a) := ⟨fun _ _ _ h h' => Int.le_trans h' h⟩
  exact List.pairwise_insertionSort _ l

/-- What is left of a list comes in the same order. -/
theorem orderByDesc_sublist {l l' : List α} (h : l.Sublist l') :
    (orderByDesc key l).Sublist (orderByDesc key l') := by
  have htrans : IsTrans α (fun a b : α => key b ≤ key a) := ⟨fun _ _ _ h h' => Int.le_trans h' h⟩
  induction h with
  | slnil => exact List.Sublist.refl _
  | cons a _ ih => exact ih.trans (List.sublist_orderedInsert a _)
  | cons_cons a _ ih => exact ih.orderedInsert_sublist a (orderByDesc_pairwise key _)

theorem orderByDesc_map (f : α → β) (key : β → ℤ) (l : List α) :
    (orderByDesc (fun a => key (f a)) l).map f = orderByDesc key (l.map f) :=
  List.map_insertionSort _ _ f l (fun _ _ _ _ => Iff.rfl)

end

/-! ## Who is crowded out -/

/-- The live sessions of a table, and when each was created. -/
def World.stamps (w : World) (tableId : Id) : List (Id × Time) :=
  (w.activeSessions tableId).map (fun s => (s.1, s.2.createdAt))

/-- **The sessions a scan would revoke**, were it to list them now. -/
def World.crowdedOut (w : World) (tableId : Id) : List Id :=
  ((orderByDesc (fun s => s.2.createdAt) (w.activeSessions tableId)).drop
    MAX_ACTIVE_PER_TABLE).map Prod.fst

/-- **The session had to leave**: as many others of the table as may be live are live, and none
was created earlier. -/
def World.Crowds (w : World) (tableId id : Id) (createdAt : Time) : Prop :=
  ∃ others : List Id, others.Nodup ∧ MAX_ACTIVE_PER_TABLE ≤ others.length ∧ id ∉ others
    ∧ ∀ o ∈ others, ∃ s, (o, s) ∈ w.activeSessions tableId ∧ createdAt ≤ s.createdAt

/-- What time, and every call but a scan's insertion, does to a session. -/
structure TableSession.Stays (s s' : TableSession) : Prop where
  tableId : s'.tableId = s.tableId
  createdAt : s'.createdAt = s.createdAt
  expiresAt : s'.expiresAt = s.expiresAt
  revokedAt : s.revokedAt.isSome = true → s'.revokedAt.isSome = true
  /-- It stays at its visit, as long as there is one. -/
  visitId : s'.visitId = s.visitId ∨ s'.visitId = none

/-- **Nobody comes**: the sessions are those that were there, and none comes back to life. -/
structure NoneComes (w w' : World) : Prop where
  now : w.now ≤ w'.now
  stays : ∀ id s, w.tableSessions.get? id = some s →
    ∃ s', w'.tableSessions.get? id = some s' ∧ s.Stays s'
  there : ∀ id s', w'.tableSessions.get? id = some s' → ∃ s, w.tableSessions.get? id = some s

section

variable {w w' : World} {tableId id : Id} {s : TableSession}

theorem mem_activeSessions : (id, s) ∈ w.activeSessions tableId ↔
    w.tableSessions.get? id = some s ∧ s.tableId = tableId ∧ s.revokedAt = none
      ∧ w.now < s.expiresAt := by
  unfold World.activeSessions
  rw [Rows.mem_filter, Bool.and_eq_true, Bool.and_eq_true, beq_iff_eq, Option.isNone_iff_eq_none,
    decide_eq_true_eq, and_assoc]

theorem keys_activeSessions (w : World) (tableId : Id) :
    ((w.activeSessions tableId).map Prod.fst).Nodup :=
  (List.pairwise_map.mpr (w.tableSessions.sorted.filter _)).imp (fun h => Nat.ne_of_lt h)

theorem stamps_sorted (w : World) (tableId : Id) :
    (w.stamps tableId).Pairwise (fun a b => a.1 < b.1) :=
  List.pairwise_map.mpr (w.tableSessions.sorted.filter _)

/-- Where nobody comes, at most those that were live are. -/
theorem NoneComes.stamps (h : NoneComes w w') (tableId : Id) :
    (w'.stamps tableId).Sublist (w.stamps tableId) := by
  have hirrefl : Std.Irrefl (fun a b : Id × Time => a.1 < b.1) := ⟨fun a => Nat.lt_irrefl a.1⟩
  have hanti : Std.Antisymm (fun a b : Id × Time => a.1 < b.1) :=
    ⟨fun a b hab hba => absurd hab (Nat.lt_asymm hba)⟩
  refine List.sublist_of_subperm_of_pairwise (List.subperm_of_subset
    (stamps_sorted w' tableId).nodup ?_) (stamps_sorted w' tableId) (stamps_sorted w tableId)
  intro x hx
  obtain ⟨⟨id, s'⟩, hs', rfl⟩ := List.mem_map.mp hx
  obtain ⟨hget', htable, hlive, hfuture⟩ := mem_activeSessions.mp hs'
  obtain ⟨s, hget⟩ := h.there id s' hget'
  obtain ⟨s'', hget'', hstays⟩ := h.stays id s hget
  obtain rfl : s' = s'' := Option.some.inj (hget'.symm.trans hget'')
  refine List.mem_map.mpr ⟨(id, s), mem_activeSessions.mpr ⟨hget, ?_, ?_, ?_⟩, ?_⟩
  · rw [← hstays.tableId]
    exact htable
  · cases hr : s.revokedAt with
    | none => rfl
    | some at₀ =>
      have hrevoked := hstays.revokedAt (by rw [hr]; rfl)
      rw [hlive] at hrevoked
      cases hrevoked
  · rw [← hstays.expiresAt]
    exact Int.lt_of_le_of_lt h.now hfuture
  · rw [hstays.createdAt]

theorem crowdedOut_eq (w : World) (tableId : Id) : w.crowdedOut tableId
    = ((orderByDesc Prod.snd (w.stamps tableId)).drop MAX_ACTIVE_PER_TABLE).map Prod.fst := by
  unfold World.crowdedOut World.stamps
  rw [← orderByDesc_map (fun s : Id × TableSession => (s.1, s.2.createdAt)) Prod.snd,
    ← List.map_drop, List.map_map]
  rfl

/-- **With fewer that are live, fewer are crowded out.** -/
theorem crowdedOut_subset (h : (w'.stamps tableId).Sublist (w.stamps tableId)) :
    w'.crowdedOut tableId ⊆ w.crowdedOut tableId := by
  rw [crowdedOut_eq, crowdedOut_eq]
  exact (((orderByDesc_sublist h).drop _).map _).subset

/-- Nobody is crowded out of a table of six. -/
theorem length_le_of_crowdedOut (h : w.crowdedOut tableId = []) :
    (w.activeSessions tableId).length ≤ MAX_ACTIVE_PER_TABLE := by
  unfold World.crowdedOut at h
  rw [List.map_eq_nil_iff, List.drop_eq_nil_iff, (orderByDesc_perm _ _).length_eq] at h
  exact h

theorem crowdedOut_of_length (h : (w.activeSessions tableId).length ≤ MAX_ACTIVE_PER_TABLE) :
    w.crowdedOut tableId = [] := by
  unfold World.crowdedOut
  rw [List.map_eq_nil_iff, List.drop_eq_nil_iff, (orderByDesc_perm _ _).length_eq]
  exact h

/-- Who is crowded out is live. -/
theorem active_of_crowdedOut (h : id ∈ w.crowdedOut tableId) :
    ∃ s, (id, s) ∈ w.activeSessions tableId := by
  obtain ⟨⟨k, s⟩, hmem, rfl⟩ := List.mem_map.mp h
  exact ⟨s, (orderByDesc_perm _ _).subset (List.drop_subset _ _ hmem)⟩

/-- **Who is crowded out has to leave.** -/
theorem crowds_of_crowdedOut (h : id ∈ w.crowdedOut tableId)
    (hs : w.tableSessions.get? id = some s) : w.Crowds tableId id s.createdAt := by
  set live := orderByDesc (fun s : Id × TableSession => s.2.createdAt) (w.activeSessions tableId)
    with hlive
  obtain ⟨⟨k, s'⟩, hmem, rfl⟩ := List.mem_map.mp h
  have hperm := orderByDesc_perm (fun s : Id × TableSession => s.2.createdAt)
    (w.activeSessions tableId)
  obtain ⟨hget, _⟩ := mem_activeSessions.mp (hperm.subset (List.drop_subset _ _ hmem))
  obtain rfl : s = s' := Option.some.inj (hs.symm.trans hget)
  -- those that come before it are six, others, and as new
  have hnodup : ((live.take MAX_ACTIVE_PER_TABLE).map Prod.fst
      ++ (live.drop MAX_ACTIVE_PER_TABLE).map Prod.fst).Nodup := by
    rw [← List.map_append, List.take_append_drop]
    exact (hperm.map Prod.fst).nodup_iff.mpr (keys_activeSessions w tableId)
  obtain ⟨hothers, _, hapart⟩ := List.nodup_append.mp hnodup
  have hordered := orderByDesc_pairwise (fun s : Id × TableSession => s.2.createdAt)
    (w.activeSessions tableId)
  rw [← hlive, ← List.take_append_drop MAX_ACTIVE_PER_TABLE live] at hordered
  have hlater := (List.pairwise_append.mp hordered).2.2
  refine ⟨(live.take MAX_ACTIVE_PER_TABLE).map Prod.fst, hothers, ?_, fun hin => ?_, ?_⟩
  · rw [List.length_map, List.length_take]
    have hlong : 0 < (live.drop MAX_ACTIVE_PER_TABLE).length := List.length_pos_of_mem hmem
    rw [List.length_drop] at hlong
    omega
  · exact hapart _ hin _ (List.mem_map_of_mem hmem) rfl
  · intro o ho
    obtain ⟨⟨o, s'⟩, hrow, rfl⟩ := List.mem_map.mp ho
    exact ⟨s', hperm.subset (List.take_subset _ _ hrow), hlater _ hrow _ hmem⟩

end

/-! ## What the calls do to the sessions -/

/-- The calls that mint no session. -/
def Call.MintsNone : Call → Prop
  | .tableSessionCreate _ => False
  | .tableSessionUpdate _ data =>
    data = revoke ∨ ∀ now s, data now s = { s with lastSeenAt := (data now s).lastSeenAt }
  | .tableSessionUpdateMany _ data => data = revoke
  | _ => True

section

variable {w w' : World} {c : Choice} {op : Call}

theorem NoneComes.of_update {p : Id → TableSession → Bool} {f : TableSession → TableSession}
    (hnow : w'.now = w.now) (hs : w'.tableSessions = w.tableSessions.update p f)
    (hf : ∀ s : TableSession, s.Stays (f s)) : NoneComes w w' := by
  refine ⟨hnow.ge, fun id s h => ?_, fun id s' h => ?_⟩
  · refine ⟨if p id s then f s else s, by rw [hs, Rows.get?_update, h, Option.map_some], ?_⟩
    split
    · exact hf s
    · exact ⟨rfl, rfl, rfl, fun hr => hr, .inl rfl⟩
  · rw [hs, Rows.get?_update, Option.map_eq_some_iff] at h
    obtain ⟨s, h, _⟩ := h
    exact ⟨s, h⟩

theorem NoneComes.of_same (hnow : w'.now = w.now) (hs : w'.tableSessions = w.tableSessions) :
    NoneComes w w' :=
  ⟨hnow.ge, fun _ s h => ⟨s, hs ▸ h, rfl, rfl, rfl, fun hr => hr, .inl rfl⟩, fun _ s' h => ⟨s', hs ▸ h⟩⟩

theorem stays_revoke (now : Time) (s : TableSession) : s.Stays (revoke now s) :=
  ⟨rfl, rfl, rfl, fun _ => rfl, .inl rfl⟩

/-- **Such a call**: nobody comes. -/
theorem exec_mintsNone (hop : op.MintsNone) (w : World) : NoneComes w (World.exec c op w).1 := by
  cases op with
  | tableSessionCreate data => exact hop.elim
  | tableSessionUpdate id data =>
    show NoneComes w (w.tableSessionUpdate id data).1
    unfold World.tableSessionUpdate
    split
    · exact NoneComes.of_same rfl rfl
    · refine NoneComes.of_update (p := fun k _ => k == id) (f := data w.now) rfl rfl (fun s => ?_)
      rcases hop with rfl | hop
      · exact stays_revoke w.now s
      · rw [hop w.now s]
        exact ⟨rfl, rfl, rfl, fun hr => hr, .inl rfl⟩
  | tableSessionUpdateMany cond data =>
    obtain rfl : data = revoke := hop
    exact NoneComes.of_update rfl rfl (stays_revoke w.now)
  | tableVisitDelete id =>
    show NoneComes w (w.tableVisitDelete id).1
    unfold World.tableVisitDelete
    split
    · exact NoneComes.of_same rfl rfl
    · exact NoneComes.of_update (p := fun _ s => s.visitId == some id)
        (f := fun s => { s with visitId := none }) rfl rfl
        (fun s => ⟨rfl, rfl, rfl, fun hr => hr, .inr rfl⟩)
  | settleTransaction visitId data orderIds provider sessionIds =>
    show NoneComes w (w.settleTransaction visitId data orderIds provider sessionIds).1
    unfold World.settleTransaction
    dsimp only
    split
    · exact NoneComes.of_same rfl rfl
    · exact NoneComes.of_update (p := fun k _ => sessionIds.contains k) rfl rfl (stays_revoke w.now)
  | regenerateTransaction tableId sessionIds =>
    show NoneComes w (w.regenerateTransaction tableId sessionIds).1
    unfold World.regenerateTransaction
    split
    · exact NoneComes.of_same rfl rfl
    · exact NoneComes.of_update (p := fun k _ => sessionIds.contains k) rfl rfl (stays_revoke w.now)
  | rotateTransaction venueId secret sessionIds =>
    show NoneComes w (w.rotateTransaction venueId secret sessionIds).1
    unfold World.rotateTransaction
    split
    · exact NoneComes.of_same rfl rfl
    · exact NoneComes.of_update (p := fun k _ => sessionIds.contains k) rfl rfl (stays_revoke w.now)
  | orderUpdate id data =>
    show NoneComes w (w.orderUpdate id data).1
    unfold World.orderUpdate
    split
    · exact NoneComes.of_same rfl rfl
    · exact NoneComes.of_same rfl rfl
  | orderCreate data items =>
    obtain ⟨hnow, hs⟩ : (World.exec c (.orderCreate data items) w).1.now = w.now
        ∧ (World.exec c (.orderCreate data items) w).1.tableSessions = w.tableSessions := by
      show (w.orderCreate c data items).1.now = _ ∧ (w.orderCreate c data items).1.tableSessions = _
      unfold World.orderCreate
      dsimp only
      repeat' split
      all_goals exact ⟨rfl, rfl⟩
    exact NoneComes.of_same hnow hs
  | orderEditTransaction orderId statuses edits totalKurus entry =>
    obtain ⟨hnow, hs⟩ :
        (World.exec c (.orderEditTransaction orderId statuses edits totalKurus entry) w).1.now
          = w.now
        ∧ (World.exec c (.orderEditTransaction orderId statuses edits totalKurus
          entry) w).1.tableSessions = w.tableSessions := by
      show (w.orderEditTransaction orderId statuses edits totalKurus entry).1.now = _
        ∧ (w.orderEditTransaction orderId statuses edits totalKurus entry).1.tableSessions = _
      unfold World.orderEditTransaction
      repeat' split
      all_goals exact ⟨rfl, rfl⟩
    exact NoneComes.of_same hnow hs
  | tableVisitUpdate id data =>
    show NoneComes w (w.tableVisitUpdate id data).1
    unfold World.tableVisitUpdate
    split
    · exact NoneComes.of_same rfl rfl
    · exact NoneComes.of_same rfl rfl
  | posDeliveryUpdate id data =>
    show NoneComes w (w.posDeliveryUpdate id data).1
    unfold World.posDeliveryUpdate
    split
    · exact NoneComes.of_same rfl rfl
    · exact NoneComes.of_same rfl rfl
  | tableCreate data =>
    show NoneComes w (w.tableCreate data).1
    unfold World.tableCreate
    split
    · exact NoneComes.of_same rfl rfl
    · split
      · exact NoneComes.of_same rfl rfl
      · exact NoneComes.of_same rfl rfl
  | tableUpdate id data =>
    show NoneComes w (w.tableUpdate id data).1
    unfold World.tableUpdate
    split
    · exact NoneComes.of_same rfl rfl
    · exact NoneComes.of_same rfl rfl
  | staffUserCreate data =>
    show NoneComes w (w.staffUserCreate data).1
    unfold World.staffUserCreate
    split
    · exact NoneComes.of_same rfl rfl
    · exact NoneComes.of_same rfl rfl
  | staffUserUpdate id data =>
    show NoneComes w (w.staffUserUpdate id data).1
    unfold World.staffUserUpdate
    split
    · exact NoneComes.of_same rfl rfl
    · exact NoneComes.of_same rfl rfl
  | _ => exact NoneComes.of_same rfl rfl

end

/-! ## The protocol -/

/-- **A scan revokes whom it has found crowded out**: the session was live at the table when the
scan looked, which was its last call, and so were as many others as may be, none created
earlier. -/
def RevokesCrowded (r : PhonesRequest) (v : View api World) (e : Event api World) : Prop :=
  ∀ t venueId token, r = .scan t venueId token → ∀ id s s',
    e.before.tableSessions.get? id = some s → e.after.tableSessions.get? id = some s' →
    s'.revokedAt ≠ s.revokedAt → ∃ looked, v.past.head? = some looked
      ∧ (∃ (β : Type) (q : World → β), looked.op = .query q)
      ∧ (∃ s₀, (id, s₀) ∈ looked.before.activeSessions t)
      ∧ looked.before.Crowds t id s.createdAt

/-- Sessions stay, and a scan revokes whom it has found crowded out. -/
abbrev phonesProtocol : Protocol phonesServer where
  Inv _ := True
  Evolves w w' := ∀ id s, w.tableSessions.get? id = some s →
    ∃ s', w'.tableSessions.get? id = some s' ∧ s'.createdAt = s.createdAt
  refl _ := fun _ s h => ⟨s, h, rfl⟩
  Local := RevokesCrowded

/-- The program has just minted its session. -/
def justMinted (v : View api World) : Bool :=
  match v.past with
  | ⟨.tableSessionCreate _, _, _⟩ :: _ => true
  | _ => false

/-- **A session that is crowded out is to be revoked.** Who has minted a session owes it, when it
is about to look, and when it is about to revoke what it has found. -/
def leaving (tableId id : Id) : Debt phonesServer where
  Due w := id ∈ w.crowdedOut tableId
  Paid w := id ∉ w.crowdedOut tableId
  Owes r v p := r.scans tableId = true ∧ match p.next with
    | some (.query _) => justMinted v = true
    | some (.tableSessionUpdateMany cond _) => ∀ s, cond id s = true
    | _ => False
  waits r v p h := by
    cases p with
    | ret a => exact h.2.elim
    | raise e => exact h.2.elim
    | call op k => rfl

section

variable {tableId t id venueId : Id} {token : ℕ} {r : PhonesRequest} {v : View api World}
  {w : World} {c : Choice} {op : Call}

variable (tableId id) in
/-- A call that mints nothing crowds nobody out. -/
theorem takes_mintsNone (hop : op.MintsNone)
    (hlocal : RevokesCrowded r v ⟨op, w, (World.exec c op w).1⟩) :
    phonesProtocol.Takes r v ⟨op, w, (World.exec c op w).1⟩
      ∧ ((leaving tableId id).Paid w → (leaving tableId id).Paid (World.exec c op w).1)
      ∧ ((leaving tableId id).Due (World.exec c op w).1 → (leaving tableId id).Due w) := by
  have hcomes := exec_mintsNone (c := c) hop w
  have hsub := crowdedOut_subset (hcomes.stamps tableId)
  refine ⟨⟨trivial, fun k s hs => ?_, hlocal⟩, fun hpaid hdue => hpaid (hsub hdue),
    fun hdue => hsub hdue⟩
  obtain ⟨s', hs', hstays⟩ := hcomes.stays k s hs
  exact ⟨s', hs', hstays.createdAt⟩

/-- What joins a visit mints nothing, and revokes nobody. -/
theorem join_revokesCrowded (hop : op.JoinWork) :
    op.MintsNone ∧ RevokesCrowded r v ⟨op, w, (World.exec c op w).1⟩ := by
  have hsame : ∀ w' : World, (∀ k s s', w.tableSessions.get? k = some s →
      w'.tableSessions.get? k = some s' → s'.revokedAt = s.revokedAt) →
      RevokesCrowded r v ⟨op, w, w'⟩ :=
    fun w' h _ _ _ _ k s s' hs hs' hne => absurd (h k s s' hs hs') hne
  cases op with
  | query q =>
    refine ⟨trivial, hsame _ (fun k s s' hs hs' => ?_)⟩
    rw [show (World.exec c (.query q) w).1 = w from rfl, hs] at hs'
    cases hs'
    rfl
  | tableVisitCreate table venueId =>
    refine ⟨trivial, hsame _ (fun k s s' hs hs' => ?_)⟩
    rw [show (World.exec c (.tableVisitCreate table venueId) w).1.tableSessions
      = w.tableSessions from rfl, hs] at hs'
    cases hs'
    rfl
  | tableVisitDelete visitId =>
    refine ⟨trivial, hsame _ (fun k s s' hs hs' => ?_)⟩
    replace hs' : (w.tableVisitDelete visitId).1.tableSessions.get? k = some s' := hs'
    unfold World.tableVisitDelete at hs'
    split at hs'
    · rw [hs] at hs'
      cases hs'
      rfl
    · rw [Rows.get?_update, hs, Option.map_some] at hs'
      cases hs'
      split
      · rfl
      · rfl
  | _ => exact hop.elim

/-- The update of a scan that has found these crowded out. -/
abbrev displacing (stale : List Id) : Call :=
  .tableSessionUpdateMany (fun k _ => stale.contains k) revoke

/-- **A scan revokes lawfully** those it found crowded out when it looked. -/
theorem displacing_revokesCrowded {u : World} {β : Type} {q : World → β}
    {es : List (Event api World)} (hv : v.past = ⟨.query q, u, u⟩ :: es)
    (hr : r = .scan t venueId token) (hrely : phonesProtocol.Rely u w) :
    RevokesCrowded r v ⟨displacing (u.crowdedOut t), w,
      (World.exec c (displacing (u.crowdedOut t)) w).1⟩ := by
  intro t' venueId' token' hr' k s s' hs hs' hne
  rw [hr] at hr'
  cases hr'
  replace hs' : (w.tableSessions.update (fun k _ => (u.crowdedOut t).contains k)
    (revoke w.now)).get? k = some s' := hs'
  rw [Rows.get?_update, hs, Option.map_some] at hs'
  by_cases hstale : (u.crowdedOut t).contains k = true
  · have hout := List.contains_iff_mem.mp hstale
    obtain ⟨s₀, hs₀⟩ := active_of_crowdedOut hout
    have hget := (mem_activeSessions.mp hs₀).1
    -- the session was created when it was
    obtain ⟨s₁, hs₁, hcreated⟩ := hrely.evolves
      (fun h h' k s hs => by
        obtain ⟨s', hs', hc⟩ := h k s hs
        obtain ⟨s'', hs'', hc'⟩ := h' k s' hs'
        exact ⟨s'', hs'', hc'.trans hc⟩) k s₀ hget
    obtain rfl : s = s₁ := Option.some.inj (hs.symm.trans hs₁)
    refine ⟨⟨.query q, u, u⟩, by rw [hv]; rfl, ⟨β, q, rfl⟩, ⟨s₀, hs₀⟩, ?_⟩
    rw [hcreated]
    exact crowds_of_crowdedOut hout hget
  · rw [if_neg hstale] at hs'
    cases hs'
    exact absurd rfl hne

/-- Who is revoked is not crowded out. -/
theorem not_crowdedOut_of_displacing {stale : List Id} (hid : stale.contains id = true) :
    id ∉ (World.exec c (displacing stale) w).1.crowdedOut tableId := by
  intro hout
  obtain ⟨s', hs'⟩ := active_of_crowdedOut hout
  obtain ⟨hget, _, hlive, _⟩ := mem_activeSessions.mp hs'
  replace hget : (w.tableSessions.update (fun k _ => stale.contains k)
    (revoke w.now)).get? id = some s' := hget
  exact (get?_revoked hget hlive).2 hid

/-- **The revocation**, of those found crowded out. -/
theorem displace_honest {u : World} {β : Type} {q : World → β} {es : List (Event api World)}
    (hv : v.past = ⟨.query q, u, u⟩ :: es) (hr : r = .scan t venueId token) :
    phonesProtocol.Honest (leaving tableId id) r v ((perform (displacing (u.crowdedOut t))).bind
      (fun _ => .ret (.minted token))) := by
  intro w c _ hrely _
  have hsince : v.since = u := by
    unfold View.since
    rw [hv]
  rw [hsince] at hrely
  obtain ⟨htakes, hpaid, hdue⟩ := takes_mintsNone tableId id (c := c)
    (show (displacing (u.crowdedOut t)).MintsNone from rfl) (displacing_revokesCrowded hv hr hrely)
  refine ⟨htakes, fun h => .inl ?_, fun h => .inl (hdue h), trivial⟩
  rcases h with h | ⟨_, howes⟩
  · exact hpaid h
  · exact not_crowdedOut_of_displacing (c := c) (howes ⟨0, 0, 0, none, 0, 0, 0, none⟩)

/-- What a scan does when it has listed the sessions. -/
def trim (token : ℕ) (active : List (Id × TableSession)) : Api PhonesAnswer :=
  if active.length > MAX_ACTIVE_PER_TABLE then
    (perform (displacing ((active.drop MAX_ACTIVE_PER_TABLE).map Prod.fst))).bind
      (fun _ => .ret (.minted token))
  else .ret (.minted token)

/-- **The listing**: who is crowded out is to be revoked next. -/
theorem list_honest (hr : r = .scan t venueId token) :
    phonesProtocol.Honest (leaving tableId id) r v ((query (fun w : World =>
        orderByDesc (fun s => s.2.createdAt) (w.activeSessions t))).bind (trim token)) := by
  intro w c _ _ _
  have hscans : r.scans tableId = (t == tableId) := by
    rw [hr]
    rfl
  set q : World → List (Id × TableSession) :=
    fun w => orderByDesc (fun s => s.2.createdAt) (w.activeSessions t) with hq
  have hrest : phonesProtocol.Honest (leaving tableId id) r (v.push ⟨.query q, w, w⟩)
      (trim token (q w)) := by
    unfold trim
    split
    · exact displace_honest rfl hr
    · exact trivial
  refine ⟨⟨trivial, phonesProtocol.refl w,
    (join_revokesCrowded (c := c) (show (Call.query q).JoinWork from trivial)).2⟩, fun h => ?_, fun h => .inl h, hrest⟩
  by_cases hout : id ∈ w.crowdedOut tableId
  · have htable : t = tableId := by
      rcases h with h | ⟨h, _⟩
      · exact absurd hout h
      · exact beq_iff_eq.mp (hscans.symm.trans h)
    subst htable
    have hlong : (q w).length > MAX_ACTIVE_PER_TABLE := by
      by_contra hshort
      have hnone : w.crowdedOut t = [] := crowdedOut_of_length (by
        rw [hq, (orderByDesc_perm _ _).length_eq] at hshort
        exact Nat.not_lt.mp hshort)
      rw [hnone] at hout
      cases hout
    refine .inr (.inl ⟨hscans.trans (beq_self_eq_true _), ?_⟩)
    show match (trim token (q w)).next with
      | some (.query _) => _
      | some (.tableSessionUpdateMany cond _) => ∀ s, cond id s = true
      | _ => False
    unfold trim
    rw [if_pos hlong]
    exact fun _ => List.contains_iff_mem.mpr hout
  · exact .inl hout

/-- **The insertion**: whom it crowds out, the scan that has inserted is to revoke. -/
theorem insert_honest {data : NewTableSession} (hr : r = .scan t venueId token)
    (hdata : data.tableId = t) :
    phonesProtocol.Honest (leaving tableId id) r v ((perform (.tableSessionCreate data)).bind
      (fun _ => (query (fun w : World =>
        orderByDesc (fun s => s.2.createdAt) (w.activeSessions t))).bind (trim token))) := by
  intro w c _ _ _
  by_cases hvisit : (w.tableVisits.get? data.visitId).isNone = true
  · have hexec : phonesServer.exec c (.tableSessionCreate data) w = (w, .error .p2003) :=
      if_pos hvisit
    rw [hexec]
    refine ⟨⟨trivial, phonesProtocol.refl w, fun _ _ _ _ k s s' hs hs' hne => ?_⟩,
      fun h => .inl (h.resolve_right (fun h => h.2)), fun h => .inl h, trivial⟩
    rw [hs] at hs'
    cases hs'
    exact absurd rfl hne
  · set row : TableSession := ⟨data.venueId, data.tableId, data.token, some data.visitId, w.now,
      w.now, w.now + data.lifetime, none⟩ with hrow
    have hexec : phonesServer.exec c (.tableSessionCreate data) w
        = ({ w with tableSessions := w.tableSessions.create row }, .ok w.tableSessions.next) :=
      if_neg hvisit
    rw [hexec]
    have htakes : phonesProtocol.Takes r v ⟨.tableSessionCreate data, w,
        { w with tableSessions := w.tableSessions.create row }⟩ := by
      refine ⟨trivial, fun k s hs => ⟨s, Rows.get?_create_of_some hs, rfl⟩,
        fun _ _ _ _ k s s' hs hs' hne => ?_⟩
      replace hs' : (w.tableSessions.create row).get? k = some s' := hs'
      rw [Rows.get?_create_of_some hs] at hs'
      cases hs'
      exact absurd rfl hne
    by_cases htable : t = tableId
    · have howes : (leaving tableId id).Passed r (v.push ⟨.tableSessionCreate data, w,
          { w with tableSessions := w.tableSessions.create row }⟩) (.tableSessionCreate data)
          { w with tableSessions := w.tableSessions.create row }
          ((query (fun w : World => orderByDesc (fun s => s.2.createdAt)
            (w.activeSessions t))).bind (trim token)) := by
        refine .inr (.inl ⟨?_, rfl⟩)
        rw [hr, htable]
        exact beq_self_eq_true _
      exact ⟨htakes, fun _ => howes, fun _ => .inr howes, list_honest hr⟩
    · -- nobody is crowded out of another table
      have hsame : ({ w with tableSessions := w.tableSessions.create row } : World).crowdedOut
          tableId = w.crowdedOut tableId := by
        unfold World.crowdedOut World.activeSessions
        rw [Rows.filter_create_other]
        rw [show row.tableId = t from hdata, beq_eq_false_iff_ne.mpr htable]
        rfl
      refine ⟨htakes, fun h => .inl ?_, fun h => .inl ?_, list_honest hr⟩
      · show id ∉ World.crowdedOut _ tableId
        rw [hsame]
        exact h.resolve_right (fun h => h.2)
      · replace h : id ∈ World.crowdedOut _ tableId := h
        rw [hsame] at h
        exact h

/-- A scan joins a visit, inserts, lists and trims. -/
theorem scan_prog (t venueId : Id) (token : ℕ) : PhonesRequest.prog (.scan t venueId token)
    = (openOrJoinVisit t venueId).bind (fun visitId =>
      (perform (.tableSessionCreate ⟨t, venueId, token, visitId, HARD_CAP_MS⟩)).bind (fun _ =>
        (query (fun w : World => orderByDesc (fun s => s.2.createdAt) (w.activeSessions t))).bind
          (trim token))) := by
  show (mintSession t venueId token).bind (fun n => .ret (PhonesAnswer.minted n)) = _
  unfold mintSession
  rw [Prog.bind_eq, Prog.bind_assoc]
  congr 1
  funext visitId
  rw [Prog.bind_eq, Prog.bind_assoc]
  congr 1
  funext _
  rw [Prog.bind_eq, Prog.bind_assoc]
  congr 1
  funext active
  unfold trim
  split
  · exact Prog.bind_assoc _ _ _
  · rfl

/-- **A scan pays what it owes.** -/
theorem scan_honest (hr : r = .scan t venueId token) (hv : justMinted v = false) :
    phonesProtocol.Honest (leaving tableId id) r v
      (PhonesRequest.prog (.scan t venueId token)) := by
  rw [scan_prog]
  refine Protocol.honest_bind_of_calls (K := fun v => justMinted v = false)
    (openOrJoinVisit_calls t venueId) (fun v w c op _ hop _ _ => ?_) (fun v op k hK hop howes => ?_)
    (fun v visitId _ _ => insert_honest hr rfl) hv
  · obtain ⟨hnone, hlocal⟩ := join_revokesCrowded (r := r) (v := v) (w := w) (c := c) hop
    obtain ⟨htakes, hpaid, hdue⟩ := takes_mintsNone tableId id hnone hlocal
    refine ⟨htakes, hpaid, hdue, ?_⟩
    cases op with
    | tableSessionCreate data => exact hop.elim
    | _ => rfl
  · cases op with
    | query q => exact Bool.false_ne_true (hK.symm.trans howes.2)
    | tableSessionUpdateMany cond data => exact hop.elim
    | _ => exact howes.2.elim

/-- No other request mints a session. -/
theorem PhonesRequest.prog_cases (r : PhonesRequest) :
    (∃ t venueId token, r = .scan t venueId token)
      ∨ (∀ t, r.scans t = false) ∧ r.prog.Calls Call.MintsNone (fun _ => True) := by
  cases r with
  | scan t venueId token => exact .inl ⟨t, venueId, token, rfl⟩
  | validate cookie expected =>
    refine .inr ⟨fun _ => rfl, Prog.calls_bind (Prog.calls_mono
      (getActiveSession_calls cookie expected) (fun op h => ?_) (fun _ h => h)) (fun _ _ => trivial)⟩
    cases op with
    | tableSessionUpdate id data => exact .inr h
    | tableSessionUpdateMany cond data => exact h.elim
    | tableSessionCreate data => exact h.elim
    | _ => exact trivial
  | revoke staff id =>
    refine .inr ⟨fun _ => rfl, Prog.calls_bind (?_ : (deleteSession staff id).Calls _ (fun _ => True))
      (fun _ _ => trivial)⟩
    unfold deleteSession
    cases staff with
    | none => exact trivial
    | some staff =>
      refine Prog.calls_bind (Prog.calls_perform (S := api) trivial) (fun session _ => ?_)
      cases session with
      | none => exact trivial
      | some session =>
        exact Prog.calls_bind (Prog.calls_perform (S := api) (.inl rfl)) (fun _ _ =>
          Prog.calls_bind (Prog.calls_perform (S := api) trivial) (fun _ _ => trivial))
  | patch staff id body =>
    refine .inr ⟨fun _ => rfl, Prog.calls_bind (?_ : (patchTable staff id body).Calls _ (fun _ => True))
      (fun _ _ => trivial)⟩
    unfold patchTable
    cases staff with
    | none => exact trivial
    | some staff =>
      refine Prog.calls_bind (Prog.calls_perform (S := api) trivial) (fun found _ => ?_)
      cases found with
      | none => exact trivial
      | some table =>
        dsimp only
        split
        · exact Prog.calls_bind (Prog.calls_perform (S := api) trivial) (fun _ _ =>
            Prog.calls_bind (Prog.calls_perform (S := api) trivial) (fun _ _ => trivial))
        · exact Prog.calls_bind (Prog.calls_perform (S := api) trivial) (fun _ _ => trivial)
  | rotate venueId secret =>
    refine .inr ⟨fun _ => rfl, Prog.calls_bind (?_ : (rotateQrSecret venueId secret).Calls _
      (fun _ => True)) (fun _ _ => trivial)⟩
    exact Prog.calls_bind (Prog.calls_perform (S := api) trivial) (fun _ _ =>
      Prog.calls_perform (S := api) trivial)
  | settle visitId venueId input =>
    refine .inr ⟨fun _ => rfl, Prog.calls_bind (Prog.calls_mono
      (settleVisit_calls visitId venueId input) (fun op h => ?_) (fun _ h => h)) (fun _ _ => trivial)⟩
    cases op with
    | tableSessionUpdate id data => exact .inr h
    | tableSessionUpdateMany cond data => exact h.elim
    | tableSessionCreate data => exact h.elim
    | _ => exact trivial
  | sweep =>
    refine .inr ⟨fun _ => rfl, Prog.calls_bind (Prog.calls_mono sweep_closes (fun op h => ?_)
      (fun _ h => h)) (fun _ _ => trivial)⟩
    cases op with
    | tableSessionUpdate id data => exact .inr h
    | tableSessionUpdateMany cond data => exact h.elim
    | tableSessionCreate data => exact h.elim
    | _ => exact trivial

/-- **Every request pays what it owes.** -/
theorem phonesSolvent (tableId id : Id) :
    phonesProtocol.Solvent (leaving tableId id) phonesProtocol.cond where
  guarded _ _ h := h
  env e w _ := by
    have hcomes : NoneComes w (phonesServer.env e w) := by
      cases e with
      | tick ms => exact ⟨Int.le_add_of_nonneg_right (Int.natCast_nonneg ms), fun _ s h =>
          ⟨s, h, rfl, rfl, rfl, fun hr => hr, .inl rfl⟩, fun _ s h => ⟨s, h⟩⟩
      | crash => exact NoneComes.of_same rfl rfl
    have hsub := crowdedOut_subset (hcomes.stamps tableId)
    refine ⟨trivial, fun k s hs => ?_, fun hpaid hdue => hpaid (hsub hdue), fun hdue => hsub hdue⟩
    obtain ⟨s', hs', hstays⟩ := hcomes.stays k s hs
    exact ⟨s', hs', hstays.createdAt⟩
  entry r w _ := by
    rcases r.prog_cases with ⟨t, venueId, token, rfl⟩ | ⟨hscans, hcalls⟩
    · exact scan_honest rfl rfl
    · refine Protocol.honest_of_calls (K := fun _ => True) hcalls (fun v w c op _ hop _ _ => ?_)
        (fun v p _ _ howes => ?_) trivial
      · obtain ⟨htakes, hpaid, hdue⟩ := takes_mintsNone tableId id (c := c) hop
          (r := r) (v := v) (w := w) (fun t venueId token hr => by
            have hnot := hscans t
            rw [hr] at hnot
            exact absurd (beq_self_eq_true t) (Bool.eq_false_iff.mp hnot))
        exact ⟨htakes, hpaid, hdue, trivial⟩
      · have hyes : r.scans tableId = true := howes.1
        rw [hscans tableId] at hyes
        cases hyes
  ends p e _ hkills := by
    cases e with
    | tick ms => cases hkills
    | crash => cases hkills

end

/-! ## The law -/

/-- Nobody is minting a session of the table. -/
def NobodyMinting (tableId : Id) (p : phonesServer.Pool) : Prop :=
  ∀ t ∈ p.threads, t.req.scans tableId = true → t.outcome ≠ none

/-- **At most six live phones at a table**, and none is displaced without need. -/
structure SixPhones (tableId : Id) (w₀ : World) (acts : List phonesServer.Action) : Prop where
  /-- Whenever nobody is minting a session of the table, no more sessions of it are live. -/
  bounded : NobodyMinting tableId (phonesRun w₀ acts) →
    ((phonesRun w₀ acts).world.activeSessions tableId).length ≤ MAX_ACTIVE_PER_TABLE
  /-- Whatever session a scan of the table revokes, it was live at the table when the scan had
  listed the sessions, its call before, and so were as many others, none created earlier. -/
  displaced : ∀ pre i c post, acts = pre ++ .step i c :: post → ∀ t venueId token,
    (phonesRun w₀ pre).threads[i]? = some t → t.req = .scan tableId venueId token → ∀ id s s',
    (phonesRun w₀ pre).world.tableSessions.get? id = some s →
    (phonesRun w₀ (pre ++ [.step i c])).world.tableSessions.get? id = some s' →
    s'.revokedAt ≠ s.revokedAt → ∃ looked, t.view.past.head? = some looked
      ∧ (∃ (β : Type) (q : World → β), looked.op = .query q)
      ∧ (∃ s₀, (id, s₀) ∈ looked.before.activeSessions tableId)
      ∧ looked.before.Crowds tableId id s.createdAt

/-- Nothing is asked of a run. -/
theorem phones_meets (w₀ : World) (acts : List phonesServer.Action) :
    Sys.Pool.Meets phonesProtocol.cond (Sys.Pool.init w₀) acts = true :=
  phonesProtocol.meets_cond (fun _ _ _ _ _ => rfl) _ _

/-- **Six phones at a table**: in every run of scans, cookies, revocations, resets, settlements
and sweeps that begins with no more than six. -/
theorem six_phones (tableId : Id) (w₀ : World) (acts : List phonesServer.Action)
    (h₀ : (w₀.activeSessions tableId).length ≤ MAX_ACTIVE_PER_TABLE) :
    SixPhones tableId w₀ acts := by
  refine ⟨fun hquiet => length_le_of_crowdedOut (List.eq_nil_iff_forall_not_mem.mpr (fun id hout => ?_)),
    fun pre i c post _ t venueId token ht hr id s s' hs hs' hne => ?_⟩
  · have hstart : (leaving tableId id).Due w₀ → (leaving tableId id).Paid w₀ := by
      intro hdue
      replace hdue : id ∈ w₀.crowdedOut tableId := hdue
      rw [crowdedOut_of_length h₀] at hdue
      cases hdue
    have hcovered := ((phonesSolvent tableId id).covered_of_due trivial hstart
      (phones_meets w₀ acts)).2 hout
    refine hcovered.paid (fun t ht howes => ?_) hout
    exact hquiet t ht howes.1 ((leaving tableId id).waits _ _ _ howes)
  · have hok := (phonesSolvent tableId id).sound.run trivial (phones_meets w₀ pre)
    have hcases := hok.act_cases (a := .step i c)
      (phonesProtocol.cond_true (fun _ _ _ _ _ => rfl) _ _)
    rw [← Sys.Pool.run_concat] at hcases
    rcases hcases with hsame | ⟨e, ha, _⟩ | ⟨j, c', u, op, k, ha, hu, _, _, _, htakes⟩
    · rw [hsame, hs] at hs'
      cases hs'
      exact absurd rfl hne
    · cases ha
    · cases ha
      obtain rfl : t = u := Option.some.inj (ht.symm.trans hu)
      exact htakes.here tableId venueId token hr id s s' hs hs' hne

/-- Seven phones scan, one after the other has begun. -/
def sevenScans : List phonesServer.Action :=
  List.replicate 7 (.arrive (.scan 0 0 0))
    ++ (List.range 7).flatMap (fun i => List.replicate 6 (.step i plain))

/-- Six of the seven phones are left. -/
theorem six_phones_seven :
    ((phonesRun (World.blank 0) sevenScans).world.activeSessions 0).length = 6
      ∧ SixPhones 0 (World.blank 0) sevenScans :=
  ⟨by decide +kernel, six_phones 0 (World.blank 0) sevenScans (by decide)⟩

end Masadan
