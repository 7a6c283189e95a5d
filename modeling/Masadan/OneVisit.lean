import Masadan.Debts
import Masadan.Handlers

/-!
# One party at a table

No index says that a table has one open visit. A scan that found none opens one and
looks again; if it is not alone it keeps the older visit and discards its own. While
phones race there can be any number of open visits at a table; what is wanted is one
when the race is over.

Take two open visits of a table. Whoever opened the later one will read both, since
the earlier was there when it opened its own, or will find the earlier closed by then.
So the later visit is owed its deletion by somebody in flight, until one of the two is
gone: that is a `Debt`, one for each pair, and `one_visit` is what is left when nobody
owes.
-/

namespace Masadan

/-! ## The requests -/

/-- Visits are opened and joined, by themselves and in scans, and closed. -/
inductive FloorRequest where
  | join (tableId venueId : Id)
  | scan (tableId venueId : Id) (token : ℕ)
  | settle (visitId venueId : Id) (input : SettleInput)
  | sweep

inductive FloorAnswer where
  | joined (visitId : Id)
  | minted (token : ℕ)
  | settled (result : Except SettleError ℤ)
  | swept (count : ℕ)

def FloorRequest.prog : FloorRequest → Api FloorAnswer
  | .join tableId venueId => FloorAnswer.joined <$> openOrJoinVisit tableId venueId
  | .scan tableId venueId token => FloorAnswer.minted <$> mintSession tableId venueId token
  | .settle visitId venueId input => FloorAnswer.settled <$> settleVisit visitId venueId input
  | .sweep => FloorAnswer.swept <$> closeAbandonedVisits

/-- The request opens or joins a visit of the table. -/
def FloorRequest.joins (tableId : Id) : FloorRequest → Bool
  | .join t _ | .scan t _ _ => t == tableId
  | _ => false

/-- The server serving these requests. -/
abbrev floorServer : Sys api :=
  server FloorRequest.prog (fun _ => true) (fun _ => []) false

/-- A run of these requests, from a world. -/
abbrev floorRun (w₀ : World) (acts : List floorServer.Action) : floorServer.Pool :=
  Sys.Pool.run (Sys.Pool.init w₀ : floorServer.Pool) acts

/-! ## Who occupies a table -/

/-- The open visits of a table, oldest row first. -/
def World.occupants (w : World) (tableId : Id) : List Id :=
  (w.openVisitsOf tableId).map Prod.fst

/-- **Visits of a table open in the order of their rows.** -/
def InOrder (tableId : Id) (w : World) : Prop :=
  (w.openVisitsOf tableId).Pairwise (fun a b => a.2.openedAt < b.2.openedAt)

theorem mem_occupants {w : World} {tableId id : Id} : id ∈ w.occupants tableId ↔
    ∃ v, w.tableVisits.get? id = some v ∧ v.tableId = tableId ∧ v.status ∈ OPEN_VISIT_STATUSES := by
  unfold World.occupants
  rw [List.mem_map]
  constructor
  · rintro ⟨⟨k, v⟩, hmem, rfl⟩
    obtain ⟨hv, hp⟩ := Rows.mem_filter.mp hmem
    rw [Bool.and_eq_true, beq_iff_eq, List.contains_iff_mem] at hp
    exact ⟨v, hv, hp⟩
  · rintro ⟨v, hv, htable, hopen⟩
    refine ⟨(id, v), Rows.mem_filter.mpr ⟨hv, ?_⟩, rfl⟩
    rw [Bool.and_eq_true, beq_iff_eq, List.contains_iff_mem]
    exact ⟨htable, hopen⟩

theorem occupants_sorted (w : World) (tableId : Id) : (w.occupants tableId).Pairwise (· < ·) :=
  List.pairwise_map.mpr (w.tableVisits.sorted.filter _)

theorem lt_next_of_occupant {w : World} {tableId id : Id} (h : id ∈ w.occupants tableId) :
    id < w.tableVisits.next := by
  obtain ⟨v, hv, _⟩ := mem_occupants.mp h
  exact Rows.lt_next_of_get? hv

/-- **What the re-read reads**: the oldest visit first. -/
theorem InOrder.orderBy_openedAt {tableId : Id} {w : World} (h : InOrder tableId w) :
    (orderBy (fun v => v.2.openedAt) (w.openVisitsOf tableId)).map Prod.fst
      = w.occupants tableId := by
  unfold orderBy World.occupants
  rw [List.Pairwise.insertionSort_eq (h.imp (fun hlt => Int.le_of_lt hlt))]

theorem inOrder_of_one {tableId : Id} {w : World} (h : (w.openVisitsOf tableId).length ≤ 1) :
    InOrder tableId w := by
  unfold InOrder
  cases hl : w.openVisitsOf tableId with
  | nil => exact List.Pairwise.nil
  | cons v vs =>
    rw [hl, List.length_cons] at h
    rw [List.eq_nil_of_length_eq_zero (Nat.le_zero.mp (Nat.le_of_succ_le_succ h))]
    exact List.pairwise_singleton _ _

/-- A later visit of two is not the first, and there is a second. -/
theorem first_of_two {w : World} {tableId a b : Id} (hab : a < b)
    (ha : a ∈ w.occupants tableId) (hb : b ∈ w.occupants tableId) :
    ∃ oldest other rest, w.occupants tableId = oldest :: other :: rest ∧ oldest ≠ b := by
  have hsorted := occupants_sorted w tableId
  cases hl : w.occupants tableId with
  | nil =>
    rw [hl] at ha
    exact absurd ha List.not_mem_nil
  | cons oldest others =>
    rw [hl] at ha hb hsorted
    have hfirst : oldest ≤ a := by
      rcases List.mem_cons.mp ha with rfl | ha
      · exact le_refl _
      · exact Nat.le_of_lt (List.rel_of_pairwise_cons hsorted ha)
    have hne : oldest ≠ b := Nat.ne_of_lt (Nat.lt_of_le_of_lt hfirst hab)
    cases others with
    | nil => exact absurd (List.mem_singleton.mp hb).symm hne
    | cons other rest => exact ⟨oldest, other, rest, rfl, hne⟩

/-! ## What the calls do to the occupants -/

section

variable {w : World} {tableId : Id}

/-- The calls that open no visit of the table. -/
def Call.OpensNone (tableId : Id) : Call → Prop
  | .tableVisitCreate t _ => t ≠ tableId
  | .tableVisitDelete _ | .tableSessionCreate _ | .tableSessionUpdateMany _ _ => True
  | op => op.ClosingWork

theorem Call.ClosingWork.opensNone {op : Call} (h : op.ClosingWork) : op.OpensNone tableId := by
  cases op <;> first
    | exact h
    | exact h.elim

/-- A visit that is closed occupies no table. -/
theorem not_open_of_closed {v : TableVisit} (h : v.status = .closed) :
    (v.tableId == tableId && OPEN_VISIT_STATUSES.contains v.status) = false := by
  rw [h, Bool.and_eq_false_iff]
  exact .inr rfl

/-- **Such a call leaves at most the visits that were open.** -/
theorem exec_opensNone (c : Choice) (op : Call) (hop : op.OpensNone tableId) (w : World) :
    ((World.exec c op w).1.openVisitsOf tableId).Sublist (w.openVisitsOf tableId) := by
  have hsame : ∀ w' : World, w'.tableVisits = w.tableVisits →
      (w'.openVisitsOf tableId).Sublist (w.openVisitsOf tableId) := by
    intro w' h
    unfold World.openVisitsOf
    rw [h]
  have hharmless : op.Harmless →
      ((World.exec c op w).1.openVisitsOf tableId).Sublist (w.openVisitsOf tableId) :=
    fun h => hsame _ (exec_harmless h w).tableVisits
  cases op with
  | tableVisitCreate t venueId =>
    show ((w.tableVisits.create _).filter _).Sublist _
    have hnot : (t == tableId) = false := beq_eq_false_iff_ne.mpr hop
    rw [Rows.filter_create, hnot]
    simp [World.openVisitsOf]
  | tableVisitDelete id =>
    show ((w.tableVisitDelete id).1.openVisitsOf tableId).Sublist _
    unfold World.tableVisitDelete
    split
    · exact List.Sublist.refl _
    · have herase := Rows.filter_erase w.tableVisits (fun k _ => k == id)
        (fun _ v => v.tableId == tableId && OPEN_VISIT_STATUSES.contains v.status)
      unfold World.openVisitsOf
      rw [herase]
      exact List.filter_sublist
  | tableVisitUpdate id data =>
    show ((w.tableVisitUpdate id data).1.openVisitsOf tableId).Sublist _
    unfold World.tableVisitUpdate
    split
    · exact List.Sublist.refl _
    · show ((w.tableVisits.updateAt id _).filter _).Sublist (w.tableVisits.filter _)
      exact Rows.filter_update_sublist (fun _ v _ => not_open_of_closed (hop w.now v))
  | settleTransaction visitId data orderIds provider sessionIds =>
    show ((w.settleTransaction visitId data orderIds provider sessionIds).1.openVisitsOf
      tableId).Sublist _
    rcases settleTransaction_cases (Prod.mk.eta
        (p := w.settleTransaction visitId data orderIds provider sessionIds)).symm
      with ⟨h, _⟩ | ⟨_, _, _, _, h⟩
    · rw [h]
    · rw [h]
      show ((w.tableVisits.update _ _).filter _).Sublist (w.tableVisits.filter _)
      exact Rows.filter_update_sublist (fun _ v _ => not_open_of_closed (hop w.now v))
  | tableSessionCreate data =>
    refine hsame _ ?_
    show (w.tableSessionCreate data).1.tableVisits = _
    unfold World.tableSessionCreate
    split
    · rfl
    · rfl
  | tableSessionUpdateMany cond data => exact hsame _ rfl
  | _ => exact hharmless hop

/-- A new visit comes last. -/
theorem openVisitsOf_create (w : World) (tableId venueId : Id) :
    ∃ v, v.openedAt = w.now ∧ (w.tableVisitCreate tableId venueId).openVisitsOf tableId
      = w.openVisitsOf tableId ++ [(w.tableVisits.next, v)] := by
  refine ⟨⟨venueId, tableId, .opened, w.now, none, none, none, none, none, none, none⟩, rfl, ?_⟩
  refine (Rows.filter_create w.tableVisits _ _).trans ?_
  rw [beq_self_eq_true, Bool.true_and]
  rfl

theorem occupants_create (w : World) (tableId venueId : Id) :
    (w.tableVisitCreate tableId venueId).occupants tableId
      = w.occupants tableId ++ [w.tableVisits.next] := by
  obtain ⟨v, _, h⟩ := openVisitsOf_create w tableId venueId
  unfold World.occupants
  rw [h, List.map_append]
  rfl

/-- A visit that was deleted, or was not there to delete, occupies no table. -/
theorem not_occupant_of_delete (w : World) (tableId id : Id) :
    id ∉ (w.tableVisitDelete id).1.occupants tableId := by
  intro h
  obtain ⟨v, hv, _⟩ := mem_occupants.mp h
  unfold World.tableVisitDelete at hv
  split at hv
  · next hnone =>
    rw [hnone] at hv
    cases hv
  · have hget : (w.tableVisits.erase (fun k _ => k == id)).get? id = some v := hv
    rw [Rows.get?_erase, Option.filter_eq_some_iff, beq_self_eq_true] at hget
    cases hget.2

end

/-! ## The protocol -/

/-- The visit a program has opened by its last call. -/
def lastOpened (v : View api World) : Option Id :=
  match v.past with
  | ⟨.tableVisitCreate _ _, before, _⟩ :: _ => some before.tableVisits.next
  | _ => none

/-- **The visit a program has in hand**: it has opened it, and is about to look again or to
delete it. -/
def inHand (v : View api World) (p : Api FloorAnswer) : Option Id :=
  match p.next with
  | some (.query _) => lastOpened v
  | some (.tableVisitDelete id) => some id
  | _ => none

/-- A program that has not just opened a visit and deletes none has none in hand. -/
theorem inHand_none {v : View api World} {p : Api FloorAnswer} {A : Call → Prop}
    {B : FloorAnswer → Prop} (hp : p.Calls A B) (hA : ∀ id, ¬ A (.tableVisitDelete id))
    (hv : lastOpened v = none) : inHand v p = none := by
  cases p with
  | ret a => rfl
  | raise e => rfl
  | call op k =>
    cases op with
    | query q => exact hv
    | tableVisitDelete id => exact absurd hp.1 (hA id)
    | _ => rfl

/-- **A visit opens later than those it finds open.** -/
def opensLater (op : Call) (w : World) : Bool :=
  match op with
  | .tableVisitCreate tableId _ =>
    (w.openVisitsOf tableId).all (fun v => decide (v.2.openedAt < w.now))
  | _ => true

/-- Visits of the table open in the order of their rows. -/
abbrev floorProtocol (tableId : Id) : Protocol floorServer where
  Inv := InOrder tableId
  Evolves _ _ := True
  refl _ := trivial
  Guard _ _ _ op w := opensLater op w

/-- **Of two open visits of a table the later is to be deleted.** Its opener owes the
deletion, when it is about to look again and when it is about to delete. -/
def laterVisit (tableId earlier later : Id) : Debt floorServer where
  Due w := earlier ∈ w.occupants tableId ∧ later ∈ w.occupants tableId
  Paid w := ¬ (earlier ∈ w.occupants tableId ∧ later ∈ w.occupants tableId)
  Owes r v p := r.joins tableId = true ∧ inHand v p = some later
  waits r v p h := by
    cases p with
    | ret a => cases h.2
    | raise e => cases h.2
    | call op k => rfl

section

variable {tableId earlier later : Id} {r : FloorRequest} {v : View api World} {w : World}

/-- A visit opened later than the others keeps the order. -/
theorem InOrder.create {t venueId : Id} (hw : InOrder tableId w)
    (hg : opensLater (.tableVisitCreate t venueId) w = true) :
    InOrder tableId (w.tableVisitCreate t venueId) := by
  by_cases ht : t = tableId
  · subst ht
    obtain ⟨v, hopened, h⟩ := openVisitsOf_create w t venueId
    unfold InOrder
    rw [h]
    refine List.pairwise_append.mpr ⟨hw, List.pairwise_singleton _ _, fun a ha b hb => ?_⟩
    obtain rfl := List.mem_singleton.mp hb
    rw [hopened]
    exact of_decide_eq_true (List.all_eq_true.mp hg a ha)
  · exact List.Pairwise.sublist (exec_opensNone plain (.tableVisitCreate t venueId) ht w) hw

/-- A call that opens no visit of the table. -/
theorem takes_opensNone (c : Choice) (op : Call) (hw : InOrder tableId w)
    (hop : op.OpensNone tableId) :
    (floorProtocol tableId).Takes r v ⟨op, w, (World.exec c op w).1⟩
      ∧ ((World.exec c op w).1.occupants tableId).Sublist (w.occupants tableId) :=
  ⟨⟨List.Pairwise.sublist (exec_opensNone c op hop w) hw, trivial, trivial⟩,
    List.Sublist.map _ (exec_opensNone c op hop w)⟩

/-- What opens no visit of the table and owes nothing is honest. -/
theorem opensNone_honest {B : FloorAnswer → Prop} {A : Call → Prop}
    {K : View api World → Prop} {p : Api FloorAnswer} (hp : p.Calls A B)
    (hA : ∀ op, A op → op.OpensNone tableId)
    (hK : ∀ v op w w', K v → A op → K (v.push ⟨op, w, w'⟩))
    (howes : ∀ v p, K v → p.Calls A B → ¬ (laterVisit tableId earlier later).Owes r v p)
    (hv : K v) : (floorProtocol tableId).Honest (laterVisit tableId earlier later) r v p := by
  refine Protocol.honest_of_calls hp (fun v w c op hv hop hw _ => ?_) howes hv
  obtain ⟨ht, hsub⟩ := takes_opensNone (r := r) (v := v) c op hw (hA op hop)
  exact ⟨ht, fun hpaid hdue => hpaid ⟨hsub.subset hdue.1, hsub.subset hdue.2⟩,
    fun hdue => ⟨hsub.subset hdue.1, hsub.subset hdue.2⟩, hK v op w _ hv hop⟩

/-- What a scan does once it has its visit. -/
def Call.SeatWork : Call → Prop
  | .query _ | .tableSessionCreate _ | .tableSessionUpdateMany _ _ => True
  | _ => False

theorem Call.SeatWork.opensNone {op : Call} (h : op.SeatWork) : op.OpensNone tableId := by
  cases op <;> first
    | exact trivial
    | exact h.elim

/-- **A program that is through with its visit owes nothing.** -/
theorem seated_honest {p : Api FloorAnswer} (hp : p.Calls Call.SeatWork (fun _ => True))
    (hv : lastOpened v = none) :
    (floorProtocol tableId).Honest (laterVisit tableId earlier later) r v p := by
  refine opensNone_honest (K := fun v => lastOpened v = none) hp (fun _ h => h.opensNone)
    (fun v op w w' _ hop => ?_) (fun v p hv hp howes => ?_) hv
  · cases op with
    | tableVisitCreate t venueId => exact hop.elim
    | _ => rfl
  · have hhand := howes.2
    rw [inHand_none hp (fun _ h => h) hv] at hhand
    cases hhand

/-- **A look at the world**: the program that has just opened the later visit, and reads
both, goes on to delete its own. -/
theorem look_honest {β : Type} {q : World → β} {k : β → Api FloorAnswer}
    (hdelete : r.joins tableId = true → lastOpened v = some later →
      ∀ w, InOrder tableId w → earlier ∈ w.occupants tableId → later ∈ w.occupants tableId →
      (k (q w)).next = some (.tableVisitDelete later))
    (h : ∀ w, InOrder tableId w → (floorProtocol tableId).Honest
      (laterVisit tableId earlier later) r (v.push ⟨.query q, w, w⟩) (k (q w))) :
    (floorProtocol tableId).Honest (laterVisit tableId earlier later) r v ((query q).bind k) := by
  intro w c hw _ _
  refine ⟨⟨hw, trivial, trivial⟩, fun hpaid => ?_, fun hdue => .inl hdue, h w hw⟩
  rcases hpaid with hpaid | ⟨hjoins, hlast⟩
  · exact .inl hpaid
  · by_cases hdue : earlier ∈ w.occupants tableId ∧ later ∈ w.occupants tableId
    · refine .inr (.inl ⟨hjoins, ?_⟩)
      show inHand _ (k (q w)) = some later
      unfold inHand
      rw [hdelete hjoins hlast w hw hdue.1 hdue.2]
    · exact .inl hdue

/-- A deletion pays the debt of the visit deleted. -/
theorem discard_honest {id : Id} {k : Except DbError Unit → Api FloorAnswer}
    (h : ∀ w x, (floorProtocol tableId).Honest (laterVisit tableId earlier later) r
      (v.push ⟨.tableVisitDelete id, w, (w.tableVisitDelete id).1⟩) (k x)) :
    (floorProtocol tableId).Honest (laterVisit tableId earlier later) r v
      (.call (.tableVisitDelete id) k) := by
  intro w c hw _ _
  obtain ⟨ht, hsub⟩ := takes_opensNone (r := r) (v := v) c (.tableVisitDelete id) hw trivial
  refine ⟨ht, fun hpaid => .inl ?_, fun hdue => .inl ⟨hsub.subset hdue.1, hsub.subset hdue.2⟩,
    h w _⟩
  rcases hpaid with hpaid | howes
  · exact fun hdue => hpaid ⟨hsub.subset hdue.1, hsub.subset hdue.2⟩
  · obtain rfl : id = later := Option.some.inj howes.2
    exact fun hdue => not_occupant_of_delete w tableId id hdue.2

/-- **A visit that is opened** after an earlier one is to be deleted: its opener is about to
look again. -/
theorem open_honest {t venueId : Id} {f : Id → Api FloorAnswer} (hlt : earlier < later)
    (hr : r.joins tableId = (t == tableId)) (hlook : ∀ id, ∃ β, ∃ (q : World → β) (k : _),
      f id = .call (.query q) k)
    (h : ∀ w w', (floorProtocol tableId).Honest (laterVisit tableId earlier later) r
      (v.push ⟨.tableVisitCreate t venueId, w, w'⟩) (f w.tableVisits.next)) :
    (floorProtocol tableId).Honest (laterVisit tableId earlier later) r v
      ((perform (.tableVisitCreate t venueId)).bind f) := by
  intro w c hw _ hg
  have hnew : earlier ∈ (w.tableVisitCreate t venueId).occupants tableId ∧
      later ∈ (w.tableVisitCreate t venueId).occupants tableId →
      (earlier ∈ w.occupants tableId ∧ later ∈ w.occupants tableId)
        ∨ (t = tableId ∧ later = w.tableVisits.next) := by
    rintro ⟨hearlier, hlater⟩
    by_cases ht : t = tableId
    · subst ht
      rw [occupants_create, List.mem_append, List.mem_singleton] at hearlier hlater
      rcases hlater with hlater | hlater
      · refine .inl ⟨hearlier.resolve_right (fun h => ?_), hlater⟩
        exact absurd (lt_next_of_occupant hlater) (Nat.not_lt.mpr (h ▸ Nat.le_of_lt hlt))
      · exact .inr ⟨rfl, hlater⟩
    · have hsub := (takes_opensNone (r := r) (v := v) c (.tableVisitCreate t venueId) hw ht).2
      exact .inl ⟨hsub.subset hearlier, hsub.subset hlater⟩
  have howes : t = tableId → later = w.tableVisits.next →
      (laterVisit tableId earlier later).Owes r
        (v.push ⟨.tableVisitCreate t venueId, w, w.tableVisitCreate t venueId⟩)
        (f w.tableVisits.next) := by
    rintro rfl rfl
    obtain ⟨β, q, k, hcall⟩ := hlook w.tableVisits.next
    exact ⟨hr.trans (beq_self_eq_true _), by rw [hcall]; rfl⟩
  refine ⟨⟨hw.create hg, trivial, trivial⟩, fun hpaid => ?_, fun hdue => ?_, h w _⟩
  · by_cases hdue : earlier ∈ (w.tableVisitCreate t venueId).occupants tableId ∧
        later ∈ (w.tableVisitCreate t venueId).occupants tableId
    · rcases hnew hdue with hold | ⟨ht, hlater⟩
      · rcases hpaid with hpaid | howed
        · exact absurd hold hpaid
        · cases howed.2
      · exact .inr (.inl (howes ht hlater))
    · exact .inl hdue
  · exact (hnew hdue).imp_right (fun hlater => .inr (.inl (howes hlater.1 hlater.2)))

/-- **What a scan does to two visits**: a visit it opens is to be deleted, when an earlier
one is open, and it deletes it when it sees that. -/
theorem join_honest {t venueId : Id} {f : Id → Api FloorAnswer} (hlt : earlier < later)
    (hr : r.joins tableId = (t == tableId)) (hv : lastOpened v = none)
    (hf : ∀ id, (f id).Calls Call.SeatWork (fun _ => True)) :
    (floorProtocol tableId).Honest (laterVisit tableId earlier later) r v
      ((openOrJoinVisit t venueId).bind f) := by
  unfold openOrJoinVisit
  rw [Prog.bind_eq, Prog.bind_assoc]
  refine look_honest (fun _ hlast => ?_) (fun w₁ _ => ?_)
  · rw [hv] at hlast
    cases hlast
  split
  · exact seated_honest (hf _) rfl
  · rw [Prog.bind_eq, Prog.bind_assoc]
    refine open_honest hlt hr (fun _ => ⟨_, _, _, rfl⟩) (fun w w' => ?_)
    rw [Prog.bind_eq, Prog.bind_assoc]
    refine look_honest (fun hjoins hlast w₂ hw₂ hearlier hlater => ?_) (fun w₂ _ => ?_)
    · obtain rfl : w.tableVisits.next = later := Option.some.inj hlast
      obtain rfl : t = tableId := beq_iff_eq.mp (hr.symm.trans hjoins)
      obtain ⟨oldest, other, rest, hlist, hne⟩ := first_of_two hlt hearlier hlater
      rw [hw₂.orderBy_openedAt, hlist]
      dsimp only
      rw [if_neg hne]
      rfl
    · split
      · split
        · exact seated_honest (hf _) rfl
        · refine discard_honest (fun w₃ x => ?_)
          cases x with
          | ok _ => exact seated_honest (hf _) rfl
          | error _ => exact seated_honest (hf _) rfl
      · exact seated_honest (hf _) rfl

/-- **A request joins a visit first of all**, and only seats its phone after, or it opens
and joins none. -/
theorem FloorRequest.prog_cases (r : FloorRequest) :
    (∃ t venueId f, (∀ tableId, r.joins tableId = (t == tableId))
        ∧ r.prog = (openOrJoinVisit t venueId).bind f
        ∧ ∀ id, (f id : Api FloorAnswer).Calls Call.SeatWork (fun _ => True))
      ∨ (∀ tableId, r.joins tableId = false) ∧ r.prog.Calls Call.ClosingWork (fun _ => True) := by
  cases r with
  | join t venueId => exact .inl ⟨t, venueId, _, fun _ => rfl, rfl, fun _ => trivial⟩
  | scan t venueId token =>
    refine .inl ⟨t, venueId, _, fun _ => rfl, Prog.bind_assoc _ _ _, fun visitId => ?_⟩
    refine Prog.calls_bind (B := fun _ => True) ?_ (fun _ _ => trivial)
    refine Prog.calls_bind (Prog.calls_perform (S := api) trivial) (fun _ _ => ?_)
    refine Prog.calls_bind (Prog.calls_perform (S := api) trivial) (fun active _ => ?_)
    split
    · exact Prog.calls_bind (Prog.calls_perform (S := api) trivial) (fun _ _ => trivial)
    · exact trivial
  | settle visitId venueId input =>
    exact .inr ⟨fun _ => rfl, Prog.calls_bind (Prog.calls_mono (settleVisit_calls visitId venueId input)
      (fun _ h => h.closingWork) (fun _ h => h)) (fun _ _ => trivial)⟩
  | sweep => exact .inr ⟨fun _ => rfl, Prog.calls_bind sweep_closes (fun _ _ => trivial)⟩

/-- **Every request pays what it owes.** -/
theorem floorSolvent (hlt : earlier < later) :
    (floorProtocol tableId).Solvent (laterVisit tableId earlier later)
      (floorProtocol tableId).cond where
  guarded _ _ h := h
  env e w hw := by
    cases e with
    | tick ms => exact ⟨hw, trivial, fun h => h, fun h => h⟩
    | crash => exact ⟨hw, trivial, fun h => h, fun h => h⟩
  entry r w _ := by
    show (floorProtocol tableId).Honest _ r _ r.prog
    rcases r.prog_cases with ⟨t, venueId, f, hjoins, hprog, hf⟩ | ⟨hjoins, hcalls⟩
    · rw [hprog]
      exact join_honest hlt (hjoins tableId) rfl hf
    · refine opensNone_honest (K := fun _ => True) hcalls (fun _ h => h.opensNone)
        (fun _ _ _ _ _ _ => trivial) (fun v p _ _ howes => ?_) trivial
      have hyes : r.joins tableId = true := howes.1
      rw [hjoins tableId] at hyes
      cases hyes
  ends p e _ hkills := by
    cases e with
    | tick ms => cases hkills
    | crash => cases hkills

end

/-! ## The law -/

/-- The program is inside `openOrJoinVisit`: it waits for its first look, for its visit, for
its second look, or for the deletion. -/
def joining (v : View api World) (p : Api FloorAnswer) : Bool :=
  match p.next with
  | some (.query _) => v.past.isEmpty || (lastOpened v).isSome
  | some (.tableVisitCreate _ _) | some (.tableVisitDelete _) => true
  | _ => false

/-- Nobody opens or joins a visit of the table. -/
def NobodyJoining (tableId : Id) (p : floorServer.Pool) : Prop :=
  ∀ t ∈ p.threads, t.req.joins tableId = true → joining t.view t.prog = false

/-- Who has a visit in hand has not joined yet. -/
theorem joining_of_inHand {id : Id} {v : View api World} {p : Api FloorAnswer}
    (h : inHand v p = some id) : joining v p = true := by
  unfold joining
  cases p with
  | ret a => cases h
  | raise e => cases h
  | call op k =>
    cases op with
    | query q =>
      have hlast : lastOpened v = some id := h
      show (v.past.isEmpty || (lastOpened v).isSome) = true
      rw [hlast, Option.isSome_some, Bool.or_true]
    | tableVisitCreate t venueId => rfl
    | tableVisitDelete k => rfl
    | _ => cases h

/-- Who is through has joined. -/
theorem joining_of_quiet {v : View api World} {p : Api FloorAnswer} (h : p.outcome ≠ none) :
    joining v p = false := by
  cases p with
  | ret a => rfl
  | raise e => rfl
  | call op k => exact absurd rfl h

/-- **Two open visits**, of a table where nobody is joining, there are not. -/
theorem occupants_le_one {tableId : Id} {w₀ : World} {acts : List floorServer.Action}
    (h₀ : (w₀.occupants tableId).length ≤ 1)
    (h : Sys.Pool.Meets (floorProtocol tableId).cond (Sys.Pool.init w₀) acts = true)
    (hquiet : NobodyJoining tableId (floorRun w₀ acts)) :
    ((floorRun w₀ acts).world.occupants tableId).length ≤ 1 := by
  have hinit : InOrder tableId w₀ := inOrder_of_one (by
    rw [← List.length_map (f := Prod.fst)]
    exact h₀)
  by_contra hmany
  cases hl : (floorRun w₀ acts).world.occupants tableId with
  | nil =>
    rw [hl] at hmany
    exact hmany (Nat.zero_le _)
  | cons earlier others =>
    cases others with
    | nil =>
      rw [hl] at hmany
      exact hmany (le_refl _)
    | cons later rest =>
      have hlt : earlier < later := by
        have hsorted := occupants_sorted (floorRun w₀ acts).world tableId
        rw [hl] at hsorted
        exact List.rel_of_pairwise_cons hsorted List.mem_cons_self
      have hdue : earlier ∈ (floorRun w₀ acts).world.occupants tableId
          ∧ later ∈ (floorRun w₀ acts).world.occupants tableId := by
        rw [hl]
        exact ⟨List.mem_cons_self, List.mem_cons_of_mem _ List.mem_cons_self⟩
      have hstart : (laterVisit tableId earlier later).Due w₀ →
          (laterVisit tableId earlier later).Paid w₀ := by
        rintro ⟨hearlier, hlater⟩
        obtain ⟨oldest, other, rest', htwo, _⟩ := first_of_two hlt hearlier hlater
        rw [htwo, List.length_cons, List.length_cons] at h₀
        omega
      have hcovered := ((floorSolvent hlt).covered_of_due hinit hstart h).2 hdue
      refine hcovered.paid (fun t ht howes => ?_) hdue
      have hjoining := hquiet t ht howes.1
      rw [joining_of_inHand howes.2] at hjoining
      cases hjoining

/-- **At most one open visit per table**, whenever nobody is opening or joining one: in
every run that begins with at most one, in which visits open in the order of their
rows, however phones scan and whatever is settled or swept meanwhile. -/
theorem one_visit (tableId : Id) (w₀ : World) (acts : List floorServer.Action)
    (h₀ : (w₀.openVisitsOf tableId).length ≤ 1)
    (h : Sys.Pool.Meets (floorProtocol tableId).cond (Sys.Pool.init w₀) acts = true)
    (hquiet : NobodyJoining tableId (floorRun w₀ acts)) :
    ((floorRun w₀ acts).world.openVisitsOf tableId).length ≤ 1 := by
  rw [← List.length_map (f := Prod.fst)] at h₀ ⊢
  exact occupants_le_one h₀ h hquiet

/-- Two phones look before either opens a visit; both open one, and look again. -/
def scanRace : List floorServer.Action :=
  [.arrive (.join 0 0), .arrive (.join 0 0), .step 0 plain, .step 1 plain, .step 0 plain,
    .env (.tick 1), .step 1 plain, .step 1 plain, .step 0 plain, .step 1 plain]

/-- One visit is left of the two. -/
theorem one_visit_race :
    ((floorRun (World.blank 0) scanRace).world.openVisitsOf 0).length ≤ 1 := by
  have hrace := one_visit 0 (World.blank 0) scanRace (by decide) (by decide +kernel)
    (by unfold NobodyJoining; decide +kernel)
  exact hrace

end Masadan
