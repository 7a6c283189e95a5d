import Masadan.OneVisit
import Masadan.Tokens

/-!
# Every phone at the table sits with the party

While phones race for a table, the loser of the race deletes the visit it opened; the
sessions that were inserted into that visit lose it, and an insertion that comes later
is refused. A third phone that looks in between finds the loser's visit, since the look
takes the newest and the race keeps the oldest.

`one_party` is what holds when no phone looks in between: every scan succeeds, and once
all have returned their sessions are of the table's one open visit. `one_party_fails` is
a race of three phones.

A phone that has opened a visit finds it when it looks again, because a visit is deleted
by its opener alone. That is a `Token`: the right to a visit's row is in the world before
the row is created and after it is deleted, and in the hands of its opener between.
-/

namespace Masadan

/-! ## A visit is deleted by its opener alone -/

/-- Nothing is asked of the requests. -/
abbrev anyProtocol : Protocol floorServer where
  Inv _ := True
  Evolves _ _ := True
  refl _ := trivial

/-- How many rows the visit lacks: one, when it is not there. -/
def World.missing (w : World) (id : Id) : ℕ := if (w.tableVisits.get? id).isNone then 1 else 0

/-- **The right to a visit's row**: in the world while there is no such row, and with the
program that has opened the visit, until it keeps it or has deleted it. -/
def visitRight (id : Id) : Token floorServer where
  stock w := w.missing id
  holds _ v p := if inHand v p = some id then 1 else 0

section

variable {id : Id} {r : FloorRequest} {v : View api World}

/-- The calls that add no row to the visits and take none away. -/
def Call.KeepsVisits : Call → Prop
  | .tableSessionCreate _ | .tableSessionUpdateMany _ _ => True
  | op => op.ClosingWork

theorem Call.ClosingWork.keepsVisits {op : Call} (h : op.ClosingWork) : op.KeepsVisits := by
  cases op <;> first
    | exact h
    | exact h.elim

theorem Call.SeatWork.keepsVisits {op : Call} (h : op.SeatWork) : op.KeepsVisits := by
  cases op <;> first
    | exact trivial
    | exact h.elim

theorem missing_create (w : World) (tableId venueId id : Id) :
    (w.tableVisitCreate tableId venueId).missing id + (if w.tableVisits.next = id then 1 else 0)
      ≤ w.missing id := by
  show (if ((w.tableVisits.create _).get? id).isNone then 1 else 0) + _ ≤ _
  rw [Rows.get?_create]
  by_cases hid : id = w.tableVisits.next
  · subst hid
    rw [if_pos rfl, if_pos rfl, World.missing, Rows.get?_next]
    exact le_refl _
  · rw [if_neg hid, if_neg (Ne.symm hid)]
    exact le_refl _

theorem missing_delete (w : World) (k id : Id) :
    (w.tableVisitDelete k).1.missing id ≤ w.missing id + (if k = id then 1 else 0) := by
  unfold World.tableVisitDelete
  split
  · exact Nat.le_add_right _ _
  · show (if ((w.tableVisits.erase _).get? id).isNone then 1 else 0) ≤ _
    rw [Rows.get?_erase]
    by_cases hid : k = id
    · rw [if_pos hid]
      split
      · exact Nat.le_add_left _ _
      · exact Nat.zero_le _
    · rw [if_neg hid, World.missing]
      cases hget : w.tableVisits.get? id with
      | none => exact le_refl _
      | some visit =>
        have hkept : (!id == k) = true := by simpa using Ne.symm hid
        rw [Option.filter_some, hkept]
        exact le_refl _

theorem missing_keeps {c : Choice} {op : Call} (hop : op.KeepsVisits) (w : World) (id : Id) :
    (World.exec c op w).1.missing id = w.missing id := by
  have hmap : ∀ (w' : World) (f : TableVisit → TableVisit),
      w'.tableVisits.get? id = (w.tableVisits.get? id).map f → w'.missing id = w.missing id := by
    intro w' f h
    unfold World.missing
    rw [h, Option.isNone_map]
  have hsame : ∀ w' : World, w'.tableVisits = w.tableVisits → w'.missing id = w.missing id := by
    intro w' h
    unfold World.missing
    rw [h]
  have hharmless : op.Harmless → (World.exec c op w).1.missing id = w.missing id :=
    fun h => hsame _ (exec_harmless h w).tableVisits
  cases op with
  | tableVisitUpdate k data =>
    show (w.tableVisitUpdate k data).1.missing id = _
    unfold World.tableVisitUpdate
    split
    · rfl
    · exact hmap _ _ (Rows.get?_updateAt _ _ _ _)
  | settleTransaction visitId data orderIds provider sessionIds =>
    show (w.settleTransaction visitId data orderIds provider sessionIds).1.missing id = _
    unfold World.settleTransaction
    dsimp only
    split
    · rfl
    · exact hmap _ _ (Rows.get?_update _ _ _ _)
  | tableSessionCreate data =>
    show (w.tableSessionCreate data).1.missing id = _
    unfold World.tableSessionCreate
    split
    · rfl
    · exact hsame _ rfl
  | tableSessionUpdateMany cond data => exact hsame _ rfl
  | _ => exact hharmless hop

/-- What follows counts no less. -/
theorem holds_mono {p q : Prop} [Decidable p] [Decidable q] (h : p → q) :
    (if p then 1 else 0) ≤ (if q then 1 else 0) := by
  by_cases hp : p
  · rw [if_pos hp, if_pos (h hp)]
  · rw [if_neg hp]
    exact Nat.zero_le _

/-- A program that neither has just opened a visit nor deletes one. -/
theorem keepsVisits_frugal {A : Call → Prop} {B : FloorAnswer → Prop} {p : Api FloorAnswer}
    (hp : p.Calls A B) (hA : ∀ op, A op → op.KeepsVisits) (hv : lastOpened v = none) :
    anyProtocol.Frugal (visitRight id) r v p := by
  refine Protocol.frugal_of_calls (M := fun v => lastOpened v = none) hp
    (fun v w c op _ hop _ _ => ⟨⟨trivial, trivial, trivial⟩, ?_, ?_, ?_⟩)
    (fun v p hv hp => ?_) hv
  · exact Nat.le_of_eq (missing_keeps (hA op hop) w id)
  · cases op <;> rfl
  · have hkeeps := hA op hop
    cases op <;> first
      | rfl
      | exact hkeeps.elim
  · show (if inHand v p = some id then 1 else 0) = 0
    rw [inHand_none hp (fun _ h => hA _ h) hv, if_neg (by simp)]

/-- A look at the world. -/
theorem look_frugal {β : Type} {q : World → β} {k : β → Api FloorAnswer}
    (hhand : ∀ w, inHand (v.push ⟨.query q, w, w⟩) (k (q w)) = some id → lastOpened v = some id)
    (h : ∀ w, anyProtocol.Frugal (visitRight id) r (v.push ⟨.query q, w, w⟩) (k (q w))) :
    anyProtocol.Frugal (visitRight id) r v ((query q).bind k) := by
  intro w c _ _ _
  exact ⟨⟨trivial, trivial, trivial⟩, Nat.add_le_add_left (holds_mono (hhand w)) _, h w⟩

/-- The program that opens a visit takes the right to its row. -/
theorem open_frugal {t venueId : Id} {f : Id → Api FloorAnswer}
    (hhand : ∀ w w', inHand (v.push ⟨.tableVisitCreate t venueId, w, w'⟩) (f w.tableVisits.next)
      = some id → w.tableVisits.next = id)
    (h : ∀ w w', anyProtocol.Frugal (visitRight id) r
      (v.push ⟨.tableVisitCreate t venueId, w, w'⟩) (f w.tableVisits.next)) :
    anyProtocol.Frugal (visitRight id) r v ((perform (.tableVisitCreate t venueId)).bind f) := by
  intro w c _ _ _
  refine ⟨⟨trivial, trivial, trivial⟩, ?_, h w _⟩
  exact (Nat.add_le_add_left (holds_mono (hhand w _)) _).trans (missing_create w t venueId id)

/-- The program that deletes it gives the right back. -/
theorem discard_frugal {k : Id} {f : Except DbError Unit → Api FloorAnswer}
    (hhand : ∀ w x, inHand (v.push ⟨.tableVisitDelete k, w, (w.tableVisitDelete k).1⟩) (f x) = none)
    (h : ∀ w x, anyProtocol.Frugal (visitRight id) r
      (v.push ⟨.tableVisitDelete k, w, (w.tableVisitDelete k).1⟩) (f x)) :
    anyProtocol.Frugal (visitRight id) r v (.call (.tableVisitDelete k) f) := by
  intro w c _ _ _
  refine ⟨⟨trivial, trivial, trivial⟩, ?_, h w _⟩
  show (w.tableVisitDelete k).1.missing id
    + (if inHand (v.push ⟨_, w, (w.tableVisitDelete k).1⟩) (f (w.tableVisitDelete k).2) = some id
        then 1 else 0) + 0 ≤ w.missing id + (if some k = some id then 1 else 0)
  rw [hhand w, if_neg (by simp)]
  refine (missing_delete w k id).trans (Nat.add_le_add_left (holds_mono (fun h => ?_)) _)
  rw [h]

/-- **A scan makes no right to a visit's row.** -/
theorem join_frugal {t venueId : Id} {f : Id → Api FloorAnswer}
    (hf : ∀ id, (f id).Calls Call.SeatWork (fun _ => True)) :
    anyProtocol.Frugal (visitRight id) r v ((openOrJoinVisit t venueId).bind f) := by
  have hnone : ∀ (v' : View api World) k, lastOpened v' = none → inHand v' (f k) = none :=
    fun v' k hv' => inHand_none (hf k) (fun _ h => h) hv'
  have hfrugal : ∀ (v' : View api World) k, lastOpened v' = none →
      anyProtocol.Frugal (visitRight id) r v' (f k) :=
    fun v' k hv' => keepsVisits_frugal (hf k) (fun _ h => h.keepsVisits) hv'
  unfold openOrJoinVisit
  rw [Prog.bind_eq, Prog.bind_assoc]
  refine look_frugal (fun w hhand => ?_) (fun w₁ => ?_)
  · split at hhand
    · cases (hnone _ _ rfl).symm.trans hhand
    · cases hhand
  split
  · exact hfrugal _ _ rfl
  · rw [Prog.bind_eq, Prog.bind_assoc]
    refine open_frugal (fun w w' hhand => Option.some.inj hhand) (fun w w' => ?_)
    rw [Prog.bind_eq, Prog.bind_assoc]
    refine look_frugal (fun w₂ hhand => ?_) (fun w₂ => ?_)
    · show some w.tableVisits.next = some id
      split at hhand
      · split at hhand
        · cases (hnone _ _ rfl).symm.trans hhand
        · exact hhand
      · cases (hnone _ _ rfl).symm.trans hhand
    · split
      · split
        · exact hfrugal _ _ rfl
        · refine discard_frugal (fun w₃ x => ?_) (fun w₃ x => ?_)
          · cases x with
            | ok _ => exact hnone _ _ rfl
            | error _ => exact hnone _ _ rfl
          · cases x with
            | ok _ => exact hfrugal _ _ rfl
            | error _ => exact hfrugal _ _ rfl
      · exact hfrugal _ _ rfl

theorem visitThrifty (id : Id) : anyProtocol.Thrifty (visitRight id) where
  env e w _ := by
    cases e with
    | tick ms => exact ⟨trivial, trivial, le_refl _⟩
    | crash => exact ⟨trivial, trivial, le_refl _⟩
  entry r w _ := by
    show anyProtocol.Frugal _ r _ r.prog
    rcases r.prog_cases with ⟨t, venueId, f, _, hprog, hf⟩ | ⟨_, hcalls⟩
    · rw [hprog]
      exact join_frugal hf
    · exact keepsVisits_frugal hcalls (fun _ h => h.keepsVisits) rfl
  empty r w _ := by
    have hhand : inHand ⟨w, []⟩ r.prog = none := by
      rcases r.prog_cases with ⟨t, venueId, f, _, hprog, _⟩ | ⟨_, hcalls⟩
      · rw [hprog]
        rfl
      · exact inHand_none hcalls (fun _ h => h) rfl
    show (if inHand ⟨w, []⟩ r.prog = some id then 1 else 0) = 0
    rw [hhand, if_neg (by simp)]

/-- **The visit a program has in hand is there.** -/
theorem exists_inHand {w₀ : World} {acts : List floorServer.Action} {t : floorServer.Thread}
    (ht : t ∈ (floorRun w₀ acts).threads) (hhand : inHand t.view t.prog = some id) :
    ((floorRun w₀ acts).world.tableVisits.get? id).isSome = true := by
  have htotal : (visitRight id).total (floorRun w₀ acts) ≤ w₀.missing id :=
    (visitThrifty id).run trivial (anyProtocol.meets_cond (fun _ _ _ _ _ => rfl) _ _)
  have hstock : w₀.missing id ≤ 1 := by
    unfold World.missing
    split
    · exact le_refl _
    · exact Nat.zero_le _
  have hheld : 1 ≤ (visitRight id).held (floorRun w₀ acts).threads := by
    have hle : (if inHand t.view t.prog = some id then 1 else 0)
        ≤ (visitRight id).held (floorRun w₀ acts).threads :=
      Token.holds_le_held (K := visitRight id) ht
    rw [if_pos hhand] at hle
    exact hle
  have hnone : (floorRun w₀ acts).world.missing id = 0 := by
    have hle : (floorRun w₀ acts).world.missing id
      + (visitRight id).held (floorRun w₀ acts).threads ≤ w₀.missing id := htotal
    omega
  unfold World.missing at hnone
  split at hnone
  · cases hnone
  · next h => exact Option.isSome_iff_ne_none.mpr (fun hn => h (by rw [hn]; rfl))

end

/-! ## Sitting with the party -/

/-- The request is a scan of the table. -/
def FloorRequest.scans (tableId : Id) : FloorRequest → Bool
  | .scan t _ _ => t == tableId
  | _ => false

/-- **Phones scan the table, and nothing else happens there**; visits open in turn. -/
def scansOnly (tableId : Id) (r : FloorRequest) (op : Call) (w : World) : Bool :=
  r.scans tableId && opensLater op w

/-- **Nobody looks in while two race**: what a scan reads first of all is at most one open
visit. -/
def looksAlone (tableId : Id) (v : View api World) (w : World) : Bool :=
  !v.past.isEmpty || decide ((w.openVisitsOf tableId).length ≤ 1)

/-- Who looks for the visit it has opened finds it. -/
def findsOwn (v : View api World) (op : Call) (w : World) : Bool :=
  match op with
  | .query _ => (lastOpened v).all (fun id => (w.tableVisits.get? id).isSome)
  | _ => true

/-- **The new sessions sit with the party**: those from `first` on are of the oldest open
visit of the table. -/
structure Party (tableId first : Id) (w : World) : Prop where
  inOrder : InOrder tableId w
  sits : ∀ id s, first ≤ id → w.tableSessions.get? id = some s →
    ∃ visitId, s.visitId = some visitId ∧ (w.occupants tableId).head? = some visitId

/-- **The party stays**: the oldest open visit is as it was, and no visit changes that is not
deleted. -/
structure Stays (tableId : Id) (w w' : World) : Prop where
  next_le : w.tableVisits.next ≤ w'.tableVisits.next
  visits : ∀ id, id < w.tableVisits.next →
    w'.tableVisits.get? id = w.tableVisits.get? id ∨ w'.tableVisits.get? id = none
  oldest : ∀ visitId, (w.occupants tableId).head? = some visitId →
    (w'.occupants tableId).head? = some visitId

theorem Stays.of_visits {tableId : Id} {w w' : World} (h : w'.tableVisits = w.tableVisits) :
    Stays tableId w w' := by
  refine ⟨Nat.le_of_eq (congrArg Rows.next h).symm, fun id _ => .inl (by rw [h]), fun visitId hv => ?_⟩
  unfold World.occupants World.openVisitsOf at hv ⊢
  rw [h]
  exact hv

theorem Stays.trans {tableId : Id} {w w' w'' : World} (h : Stays tableId w w')
    (h' : Stays tableId w' w'') : Stays tableId w w'' where
  next_le := h.next_le.trans h'.next_le
  visits id hid := by
    rcases h'.visits id (Nat.lt_of_lt_of_le hid h.next_le) with hsame | hnone
    · rw [hsame]
      exact h.visits id hid
    · exact .inr hnone
  oldest visitId hv := h'.oldest visitId (h.oldest visitId hv)

/-- Only scans of the table, and time. -/
abbrev scanProtocol (tableId : Id) : Protocol floorServer where
  Inv _ := True
  Evolves _ _ := True
  refl _ := trivial
  Guard r _ _ op w := scansOnly tableId r op w

/-- New sessions sit with the party, given that nobody looks in while two race. -/
abbrev partyProtocol (tableId first : Id) : Protocol floorServer where
  Inv := Party tableId first
  Evolves := Stays tableId
  refl _ := Stays.of_visits rfl
  Guard r v _ op w := scansOnly tableId r op w && looksAlone tableId v w

section

variable {tableId first : Id} {w w' : World}

/-- The sessions are as they were, or fewer. -/
theorem Party.of_sessions (hw : Party tableId first w) (horder : InOrder tableId w')
    (hstays : Stays tableId w w')
    (hs : ∀ id s', first ≤ id → w'.tableSessions.get? id = some s' →
      ∃ s, w.tableSessions.get? id = some s ∧ s'.visitId = s.visitId) : Party tableId first w' := by
  refine ⟨horder, fun id s' hid hs' => ?_⟩
  obtain ⟨s, hget, hsame⟩ := hs id s' hid hs'
  obtain ⟨visitId, hvisit, hfirst⟩ := hw.sits id s hid hget
  exact ⟨visitId, hsame.trans hvisit, hstays.oldest visitId hfirst⟩

/-- A phone opens a visit. -/
theorem party_open {venueId : Id} (hw : Party tableId first w)
    (hg : opensLater (.tableVisitCreate tableId venueId) w = true) :
    Party tableId first (w.tableVisitCreate tableId venueId)
      ∧ Stays tableId w (w.tableVisitCreate tableId venueId) := by
  have hstays : Stays tableId w (w.tableVisitCreate tableId venueId) := by
    refine ⟨Nat.le_succ _, fun id hid => .inl ?_, fun visitId hv => ?_⟩
    · show (w.tableVisits.create _).get? id = _
      rw [Rows.get?_create, if_neg (Nat.ne_of_lt hid)]
    · rw [occupants_create, List.head?_append, hv]
      rfl
  exact ⟨hw.of_sessions (hw.inOrder.create hg) hstays (fun id s _ hs => ⟨s, hs, rfl⟩), hstays⟩

/-- A phone discards the visit it has opened, and keeps the oldest. -/
theorem party_discard {oldest id : Id} (hw : Party tableId first w)
    (hfirst : (w.occupants tableId).head? = some oldest) (hne : oldest ≠ id) :
    Party tableId first (w.tableVisitDelete id).1 ∧ Stays tableId w (w.tableVisitDelete id).1 := by
  have hsub : ((w.tableVisitDelete id).1.openVisitsOf tableId).Sublist (w.openVisitsOf tableId) :=
    exec_opensNone plain (.tableVisitDelete id) trivial w
  have horder : InOrder tableId (w.tableVisitDelete id).1 := List.Pairwise.sublist hsub hw.inOrder
  cases hget : w.tableVisits.get? id with
  | none =>
    have hsame : (w.tableVisitDelete id).1 = w := by
      unfold World.tableVisitDelete
      rw [hget]
    rw [hsame]
    exact ⟨hw, Stays.of_visits rfl⟩
  | some visit =>
    have hdelete : (w.tableVisitDelete id).1 = { w with
        tableVisits := w.tableVisits.erase (fun k _ => k == id)
        tableSessions := w.tableSessions.update (fun _ s => s.visitId == some id)
          (fun s => { s with visitId := none })
        orders := w.orders.update (fun _ o => o.visitId == some id)
          (fun o => { o with visitId := none }) } := by
      unfold World.tableVisitDelete
      rw [hget]
    have hstays : Stays tableId w (w.tableVisitDelete id).1 := by
      rw [hdelete]
      refine ⟨le_refl _, fun k _ => ?_, fun visitId hv => ?_⟩
      · rw [Rows.get?_erase]
        cases w.tableVisits.get? k with
        | none => exact .inl rfl
        | some u =>
          rw [Option.filter_some]
          split
          · exact .inl rfl
          · exact .inr rfl
      · obtain rfl : oldest = visitId := Option.some.inj (hfirst.symm.trans hv)
        unfold World.occupants World.openVisitsOf at hv ⊢
        rw [Rows.filter_erase]
        cases hl : w.tableVisits.filter (fun _ v =>
            v.tableId == tableId && OPEN_VISIT_STATUSES.contains v.status) with
        | nil =>
          rw [hl] at hv
          cases hv
        | cons u us =>
          rw [hl] at hv
          have hu : u.1 = oldest := Option.some.inj hv
          rw [List.filter_cons_of_pos (by simpa [hu] using hne)]
          exact hv
    refine ⟨hw.of_sessions horder hstays (fun k s' hk hs' => ?_), hstays⟩
    rw [hdelete] at hs'
    have hupdate : (w.tableSessions.update _ _).get? k = some s' := hs'
    rw [Rows.get?_update] at hupdate
    obtain ⟨s, hs, rfl⟩ := Option.map_eq_some_iff.mp hupdate
    obtain ⟨visitId, hvisit, hv⟩ := hw.sits k s hk hs
    obtain rfl : oldest = visitId := Option.some.inj (hfirst.symm.trans hv)
    refine ⟨s, hs, ?_⟩
    rw [if_neg (by simpa [hvisit] using hne)]

/-- A session is inserted, of the oldest open visit, which is there. -/
theorem party_mint {d : NewTableSession} (hw : Party tableId first w)
    (hfirst : (w.occupants tableId).head? = some d.visitId) :
    (∃ id, (w.tableSessionCreate d).2 = .ok id)
      ∧ Party tableId first (w.tableSessionCreate d).1
      ∧ Stays tableId w (w.tableSessionCreate d).1 := by
  obtain ⟨visit, hvisit, _⟩ := mem_occupants.mp (List.mem_of_mem_head? hfirst)
  unfold World.tableSessionCreate
  rw [hvisit, if_neg (by simp)]
  refine ⟨⟨_, rfl⟩, ⟨hw.inOrder, fun k s hk hs => ?_⟩, Stays.of_visits rfl⟩
  have hcreate : (w.tableSessions.create _).get? k = some s := hs
  rw [Rows.get?_create] at hcreate
  split at hcreate
  · cases hcreate
    exact ⟨d.visitId, rfl, hfirst⟩
  · exact hw.sits k s hk hcreate

/-- Sessions are displaced, and stay of their visit. -/
theorem party_displace {cond : Id → TableSession → Bool} (hw : Party tableId first w) :
    Party tableId first { w with tableSessions := w.tableSessions.update cond (revoke w.now) } := by
  refine hw.of_sessions hw.inOrder (Stays.of_visits rfl) (fun k s' _ hs' => ?_)
  have hupdate : (w.tableSessions.update _ _).get? k = some s' := hs'
  rw [Rows.get?_update] at hupdate
  obtain ⟨s, hs, rfl⟩ := Option.map_eq_some_iff.mp hupdate
  refine ⟨s, hs, ?_⟩
  split
  · rfl
  · rfl

/-- What a scan finds first, when there is at most one to find. -/
theorem newest_of_one (h : (w.openVisitsOf tableId).length ≤ 1) :
    (orderByDesc (fun v => v.2.openedAt) (w.openVisitsOf tableId)).head?.map Prod.fst
      = (w.occupants tableId).head? := by
  unfold World.occupants
  cases hl : w.openVisitsOf tableId with
  | nil => rfl
  | cons v vs =>
    rw [hl, List.length_cons] at h
    obtain rfl := List.eq_nil_of_length_eq_zero (Nat.le_zero.mp (Nat.le_of_succ_le_succ h))
    rfl

end

/-! ## The scans -/

section

variable {tableId first : Id} {r : FloorRequest} {v : View api World} {α : Type}
  {Q : View api World → Except DbError α → Prop}

/-- The protocol, given that who has opened a visit finds it. -/
abbrev raceProtocol (tableId first : Id) : Protocol floorServer :=
  (partyProtocol tableId first).under (fun _ v _ op w => findsOwn v op w)

theorem stays_of_rely {w w' : World} (h : (raceProtocol tableId first).Rely w w') :
    Stays tableId w w' :=
  Protocol.Rely.evolves Stays.trans h

/-- A look, then the rest. -/
theorem ok_see {β : Type} {q : World → β} {f : β → Api α}
    (h : ∀ w, Party tableId first w → Stays tableId v.since w → looksAlone tableId v w = true →
      findsOwn v (.query q) w = true →
      (raceProtocol tableId first).Ok r Q (v.push ⟨.query q, w, w⟩) (f (q w))) :
    (raceProtocol tableId first).Ok r Q v ((query q).bind f) := by
  refine ok_write (fun w c w' x hw hrely hg hx => ?_)
  obtain ⟨rfl, rfl⟩ := Prod.mk.inj hx
  obtain ⟨hparty, hown⟩ := (Protocol.under_guard _).mp hg
  exact ⟨⟨hw, Stays.of_visits rfl, trivial⟩,
    h w hw (stays_of_rely hrely) (Bool.and_eq_true_iff.mp hparty).2 hown⟩

/-- **A scan finds, or opens and keeps, the oldest open visit of the table.** -/
theorem openOrJoinVisit_party (venueId : Id) (hv : v.past = []) :
    (raceProtocol tableId first).Ok r (fun v' x => ∃ visitId, x = .ok visitId
      ∧ (v'.since.occupants tableId).head? = some visitId) v (openOrJoinVisit tableId venueId) := by
  unfold openOrJoinVisit
  refine ok_see (fun w₁ _ _ halone _ => ?_)
  have hone : (w₁.openVisitsOf tableId).length ≤ 1 := by
    unfold looksAlone at halone
    rw [hv] at halone
    exact of_decide_eq_true halone
  rw [newest_of_one hone]
  cases hfirst : (w₁.occupants tableId).head? with
  | some id => exact ⟨id, rfl, hfirst⟩
  | none =>
    refine ok_write (fun w₂ c w₂' x hw₂ _ hg hx => ?_)
    obtain ⟨rfl, rfl⟩ := Prod.mk.inj hx
    have hguard := (Protocol.under_guard _).mp hg
    have hopens : opensLater (.tableVisitCreate tableId venueId) w₂ = true :=
      (Bool.and_eq_true_iff.mp (Bool.and_eq_true_iff.mp hguard.1).1).2
    obtain ⟨hparty, hstays⟩ := party_open hw₂ hopens
    refine ⟨⟨hparty, hstays, trivial⟩, ok_see (fun w₃ hw₃ hstays₃ _ hown => ?_)⟩
    -- its own visit is there, and as it opened it
    have hmine : w₂.tableVisits.next ∈ w₃.occupants tableId := by
      have hthere : (w₃.tableVisits.get? w₂.tableVisits.next).isSome = true := hown
      obtain ⟨visit, hvisit⟩ := Option.isSome_iff_exists.mp hthere
      rcases hstays₃.visits w₂.tableVisits.next (Nat.lt_succ_self _) with hsame | hnone
      · have hopened : w₂.tableVisits.next ∈ (w₂.tableVisitCreate tableId venueId).occupants tableId := by
          rw [occupants_create]
          exact List.mem_append_right _ List.mem_cons_self
        obtain ⟨u, hu, hrest⟩ := mem_occupants.mp hopened
        exact mem_occupants.mpr ⟨u, hsame.trans hu, hrest⟩
      · rw [hnone] at hvisit
        cases hvisit
    rw [hw₃.inOrder.orderBy_openedAt]
    cases hl : w₃.occupants tableId with
    | nil =>
      rw [hl] at hmine
      exact absurd hmine List.not_mem_nil
    | cons oldest others =>
      have hfirst₃ : (w₃.occupants tableId).head? = some oldest := by
        rw [hl]
        rfl
      cases others with
      | nil =>
        rw [hl] at hmine
        obtain rfl := List.mem_singleton.mp hmine
        exact ⟨_, rfl, hfirst₃⟩
      | cons other rest =>
        show (raceProtocol tableId first).Ok _ _ _ (if _ then _ else _)
        split
        · next heq =>
          rw [← heq]
          exact ⟨_, rfl, hfirst₃⟩
        · next hne =>
          refine Protocol.ok_bind (Protocol.ok_attempt (ok_last (fun w₄ c₄ w₄' x₄ hw₄ hrely _ hx₄ => ?_)))
          have hfirst₄ := (stays_of_rely hrely).oldest oldest hfirst₃
          obtain ⟨hparty₄, hstays₄⟩ := party_discard hw₄ hfirst₄ hne
          have hdelete : w₄.tableVisitDelete w₂.tableVisits.next = (w₄', x₄) := hx₄
          rw [hdelete] at hparty₄ hstays₄
          exact ⟨⟨hparty₄, hstays₄, trivial⟩, oldest, rfl, hstays₄.oldest oldest hfirst₄⟩

/-- **Every scan succeeds**, and its session sits with the party. -/
theorem mintSession_party (venueId : Id) (token : ℕ) (hv : v.past = []) :
    (raceProtocol tableId first).Ok r (fun _ x => x = .ok token) v
      (mintSession tableId venueId token) := by
  unfold mintSession
  refine Protocol.ok_bind (Protocol.ok_mono (openOrJoinVisit_party venueId hv) (fun v₁ x hx => ?_))
  obtain ⟨visitId, rfl, hfirst⟩ := hx
  refine ok_write (fun w c w' x hw hrely _ hx => ?_)
  have hcreate : w.tableSessionCreate ⟨tableId, venueId, token, visitId, HARD_CAP_MS⟩ = (w', x) := hx
  obtain ⟨⟨id, hok⟩, hparty, hstays⟩ := party_mint (d := ⟨tableId, venueId, token, visitId, HARD_CAP_MS⟩)
    hw ((stays_of_rely hrely).oldest visitId hfirst)
  rw [hcreate] at hok hparty hstays
  obtain rfl : x = .ok id := hok
  refine ⟨⟨hparty, hstays, trivial⟩, ok_see (fun w₂ _ _ _ _ => ?_)⟩
  split
  · refine ok_write (fun w₃ c₃ w₃' x₃ hw₃ _ _ hx₃ => ?_)
    obtain ⟨rfl, rfl⟩ := Prod.mk.inj hx₃
    exact ⟨⟨party_displace hw₃, Stays.of_visits rfl, trivial⟩, rfl⟩
  · exact rfl

end

/-! ## The law -/

/-- A scan of the table succeeds. -/
def ScanSucceeds (tableId : Id) (r : FloorRequest) (_ : View api World)
    (x : Except DbError FloorAnswer) : Prop :=
  r.scans tableId = true → ∃ a, x = .ok a

theorem raceSound (tableId first : Id) :
    (raceProtocol tableId first).Sound (ScanSucceeds tableId) where
  env e w hw := by
    cases e with
    | tick ms => exact ⟨⟨hw.inOrder, hw.sits⟩, Stays.of_visits rfl⟩
    | crash => exact ⟨hw, Stays.of_visits rfl⟩
  entry r w _ := by
    by_cases hr : r.scans tableId = true
    · cases r with
      | scan t venueId token =>
        obtain rfl : t = tableId := beq_iff_eq.mp hr
        refine Protocol.ok_map (Protocol.ok_mono (mintSession_party venueId token rfl) (fun _ x hx _ => ?_))
        rw [hx]
        exact ⟨.minted token, rfl⟩
      | join t venueId => cases hr
      | settle visitId venueId input => cases hr
      | sweep => cases hr
    · refine Protocol.ok_of_never (fun c op w => ?_) (fun x h => absurd h hr)
      show (scansOnly tableId r op w && _ && _) = false
      unfold scansOnly
      rw [Bool.eq_false_iff.mpr hr]
      rfl

/-- A run in which nobody looks in finds every visit that is in hand. -/
theorem raceMeets {tableId first : Id} {w₀ : World} {acts : List floorServer.Action}
    (h : Sys.Pool.Meets (partyProtocol tableId first).cond (Sys.Pool.init w₀) acts = true) :
    Sys.Pool.Meets (raceProtocol tableId first).cond (Sys.Pool.init w₀) acts = true := by
  refine Sys.Pool.meets_of_prefix h (fun pre a _ _ ha => ?_)
  refine Protocol.cond_of_step _ (fun i c t op k heq ht hk => ?_)
  subst heq
  refine (Protocol.under_guard _).mpr ⟨Protocol.cond_step _ ht hk ha, ?_⟩
  cases op with
  | query q =>
    show (lastOpened t.view).all _ = true
    cases hlast : lastOpened t.view with
    | none => rfl
    | some id =>
      have hhand : inHand t.view t.prog = some id := by
        rw [hk]
        exact hlast
      exact exists_inHand (List.mem_of_getElem? ht) hhand
  | _ => rfl

/-- **Every phone sits with the party**: every scan that is through has succeeded, and once
all are through, the sessions they have inserted are of the table's one open visit –
in every run in which nobody looks in while two race. -/
theorem one_party (tableId : Id) (w₀ : World) (acts : List floorServer.Action)
    (h₀ : (w₀.openVisitsOf tableId).length ≤ 1)
    (h : Sys.Pool.Meets (partyProtocol tableId w₀.tableSessions.next).cond (Sys.Pool.init w₀) acts
      = true) :
    (∀ t ∈ (floorRun w₀ acts).threads, ∀ x, t.outcome = some x → t.req.scans tableId = true →
        ∃ a, x = .ok a)
      ∧ ((floorRun w₀ acts).Quiet → ∀ id s, w₀.tableSessions.next ≤ id →
        (floorRun w₀ acts).world.tableSessions.get? id = some s →
        ∃ visitId, s.visitId = some visitId
          ∧ ((floorRun w₀ acts).world.openVisitsOf tableId).map Prod.fst = [visitId]) := by
  have hparty₀ : Party tableId w₀.tableSessions.next w₀ := by
    refine ⟨inOrder_of_one h₀, fun id s hid hs => ?_⟩
    exact absurd (Rows.lt_next_of_get? hs) (Nat.not_lt.mpr hid)
  have hpool := (raceSound tableId w₀.tableSessions.next).run hparty₀ (raceMeets h)
  refine ⟨fun t ht x hx hscan => hpool.post ht hx hscan, fun hquiet id s hid hs => ?_⟩
  obtain ⟨visitId, hvisit, hfirst⟩ := hpool.inv.sits id s hid hs
  have hfloor : Sys.Pool.Meets (floorProtocol tableId).cond (Sys.Pool.init w₀) acts = true :=
    (partyProtocol tableId w₀.tableSessions.next).meets_of_guard (fun r v c op w hg =>
      (Bool.and_eq_true_iff.mp (Bool.and_eq_true_iff.mp hg).1).2) h
  have hone := occupants_le_one (by rw [World.occupants, List.length_map]; exact h₀) hfloor
    (fun t ht _ => joining_of_quiet (hquiet t ht))
  refine ⟨visitId, hvisit, ?_⟩
  show (floorRun w₀ acts).world.occupants tableId = [visitId]
  cases hl : (floorRun w₀ acts).world.occupants tableId with
  | nil =>
    have hfirst' : ((floorRun w₀ acts).world.occupants tableId).head? = some visitId := hfirst
    rw [hl] at hfirst'
    cases hfirst'
  | cons oldest others =>
    have hfirst' : ((floorRun w₀ acts).world.occupants tableId).head? = some visitId := hfirst
    rw [hl] at hfirst' hone
    cases hfirst'
    rw [List.eq_nil_of_length_eq_zero (Nat.le_zero.mp (Nat.le_of_succ_le_succ hone))]

/-! ## A phone that looks in -/

/-- Two phones look for the visit of an idle table, and both open one. -/
def twoOpen : List floorServer.Action :=
  [.arrive (.scan 0 0 7), .arrive (.scan 0 0 8), .step 0 plain, .step 1 plain, .step 0 plain,
    .env (.tick 1), .step 1 plain]

/-- A third phone looks, the second discards its visit, and the third inserts its session. -/
def lookIn : List floorServer.Action :=
  [.arrive (.scan 0 0 9), .step 2 plain, .step 1 plain, .step 1 plain, .step 2 plain]

/-- **A scan can fail**, with three phones and nobody closing anything. -/
theorem one_party_fails :
    ¬ ∀ (tableId : Id) (w₀ : World) (acts : List floorServer.Action),
      (w₀.openVisitsOf tableId).length ≤ 1 →
      Sys.Pool.Meets (scanProtocol tableId).cond (Sys.Pool.init w₀) acts = true →
      (∀ t ∈ (floorRun w₀ acts).threads, ∀ x, t.outcome = some x → t.req.scans tableId = true →
          ∃ a, x = .ok a)
        ∧ ((floorRun w₀ acts).Quiet → ∀ id s, w₀.tableSessions.next ≤ id →
          (floorRun w₀ acts).world.tableSessions.get? id = some s →
          ∃ visitId, s.visitId = some visitId
            ∧ ((floorRun w₀ acts).world.openVisitsOf tableId).map Prod.fst = [visitId]) := by
  intro h
  have hscans := (h 0 (World.blank 0) (twoOpen ++ lookIn) (by decide) (by decide +kernel)).1
  have hfailed : ∃ t ∈ (floorRun (World.blank 0) (twoOpen ++ lookIn)).threads,
      t.req.scans 0 = true ∧ t.prog = .raise .p2003 :=
    ⟨_, List.mem_of_getElem? (i := 2) rfl, rfl, rfl⟩
  obtain ⟨t, ht, hscan, hraised⟩ := hfailed
  obtain ⟨a, ha⟩ := hscans t ht (.error .p2003) (by rw [Sys.Thread.outcome, hraised]; rfl) hscan
  cases ha

/-- The second discards its visit, and both insert their sessions. -/
def bothSeated : List floorServer.Action :=
  List.replicate 4 (.step 1 plain) ++ List.replicate 3 (.step 0 plain)

/-- Without the third, both sit at the first visit. -/
theorem one_party_two :
    ((floorRun (World.blank 0) (twoOpen ++ bothSeated)).world.openVisitsOf 0).map Prod.fst = [0] := by
  have hparty := (one_party 0 (World.blank 0) (twoOpen ++ bothSeated) (by decide)
    (by decide +kernel)).2 (Sys.Pool.quiet_of_all (by decide +kernel)) 0
    ⟨0, 0, 8, some 0, 1, 1, 1 + HARD_CAP_MS, none⟩ (by decide) (by decide +kernel)
  obtain ⟨visitId, hvisit, hone⟩ := hparty
  cases hvisit
  exact hone

end Masadan
