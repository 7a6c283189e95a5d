import Mathlib.Data.List.Infix
import Masadan.Replay

/-!
# Ticket numbers

The kitchen calls an order by its number, and a number is the venue's last one and one
more. Reading the last number and inserting under the next are two statements, so a
submission may come with a number that is long taken. The unique index refuses it then,
and nothing else has to be said: a number that is not taken and was once the next is
the next still.

`numbers_gapFree` is that argument over every run. It holds on a server whose calls may
fail and whose process may crash.
-/

namespace Masadan

/-- The server inserting orders, and nothing else. -/
abbrev numberServer (rough : Bool) : Sys api :=
  server createOrderWithNextNumber (fun _ => true) (fun _ => []) rough

/-- A run of insertions, from a world. -/
abbrev numberRun (rough : Bool) (w₀ : World) (acts : List (numberServer rough).Action) :
    (numberServer rough).Pool :=
  Sys.Pool.run (Sys.Pool.init w₀ : (numberServer rough).Pool) acts

/-! ## The numbers of a venue -/

/-- The numbers of a venue's orders, in the order in which they were committed. -/
def World.ticketNumbers (w : World) (venueId : Id) : List ℕ :=
  (w.orders.filter (fun _ o => o.venueId == venueId)).map (fun o => o.2.number)

/-- **No gaps**: the numbers of the venue's `n` orders are `1` to `n`, in the order in which
they were committed. -/
def GapFree (venueId : Id) (w : World) : Prop :=
  w.ticketNumbers venueId = List.range' 1 (w.ticketNumbers venueId).length

theorem mem_ticketNumbers {w : World} {venueId : Id} {number : ℕ} :
    number ∈ w.ticketNumbers venueId
      ↔ ∃ id o, w.orders.get? id = some o ∧ o.venueId = venueId ∧ o.number = number := by
  unfold World.ticketNumbers
  rw [List.mem_map]
  constructor
  · rintro ⟨⟨id, o⟩, hmem, rfl⟩
    obtain ⟨ho, hv⟩ := Rows.mem_filter.mp hmem
    exact ⟨id, o, ho, beq_iff_eq.mp hv, rfl⟩
  · rintro ⟨id, o, ho, hv, rfl⟩
    exact ⟨(id, o), Rows.mem_filter.mpr ⟨ho, beq_iff_eq.mpr hv⟩, rfl⟩

/-- A venue without orders has no numbers. -/
theorem ticketNumbers_nil {w : World} {venueId : Id}
    (h : ∀ id o, w.orders.get? id = some o → o.venueId ≠ venueId) :
    w.ticketNumbers venueId = [] := by
  refine List.eq_nil_iff_forall_not_mem.mpr (fun number hmem => ?_)
  obtain ⟨id, o, ho, hv, _⟩ := mem_ticketNumbers.mp hmem
  exact h id o ho hv

/-- What an insertion adds. -/
theorem ticketNumbers_insertOrder (w : World) (data : NewOrder) (items : List NewOrderItem)
    (venueId : Id) :
    (w.insertOrder data items).ticketNumbers venueId
      = w.ticketNumbers venueId ++ if data.venueId = venueId then [data.number] else [] := by
  unfold World.ticketNumbers Rows.filter
  show (List.filter _ (w.orders.rows ++ [_])).map _ = _
  rw [List.filter_append, List.map_append]
  congr 1
  by_cases hv : data.venueId = venueId
  · rw [if_pos hv, List.filter_cons_of_pos (by simpa using hv)]
    rfl
  · rw [if_neg hv, List.filter_cons_of_neg (by simpa using hv)]
    rfl

/-- The greatest of the first `n` numbers is `n`. -/
theorem foldl_max_range' (n : ℕ) : (List.range' 1 n).foldl max 0 = n := by
  induction n with
  | zero => rfl
  | succ n ih =>
    rw [List.range'_1_concat, List.foldl_append, ih]
    show max n (1 + n) = n + 1
    omega

/-- Without gaps the last number is how many orders there are. -/
theorem GapFree.lastNumber {venueId : Id} {w : World} (h : GapFree venueId w) :
    w.lastNumber venueId = (w.ticketNumbers venueId).length := by
  show (w.ticketNumbers venueId).foldl max 0 = _
  conv_lhs => rw [h]
  exact foldl_max_range' _

/-- A number the index does not refuse is no order's of the venue. -/
theorem not_mem_of_not_taken {w : World} {venueId : Id} {number : ℕ}
    (h : w.numberTaken venueId number = false) : number ∉ w.ticketNumbers venueId := by
  intro hmem
  obtain ⟨id, o, ho, hv, hnumber⟩ := mem_ticketNumbers.mp hmem
  have hfree := Rows.find?_eq_none (Option.not_isSome_iff_eq_none.mp (ne_true_of_eq_false h)) ho
  rw [hv, hnumber] at hfree
  simp at hfree

/-- **A number that was once the next, and is not taken, is the next.** -/
theorem next_of_stale {venueId : Id} {w : World} (h : GapFree venueId w) {m : ℕ}
    (hstale : m ≤ (w.ticketNumbers venueId).length)
    (hfree : w.numberTaken venueId (m + 1) = false) :
    m = (w.ticketNumbers venueId).length := by
  have hnot := not_mem_of_not_taken hfree
  rw [h, List.mem_range'_1] at hnot
  omega

/-! ## The protocol -/

/-- **New numbers come after the old ones.** -/
structure NumbersRise (venueId : Id) (w w' : World) : Prop where
  kept : w.ticketNumbers venueId <+: w'.ticketNumbers venueId
  above : ∀ id o, w.orders.get? id = none → w'.orders.get? id = some o → o.venueId = venueId →
    ∀ number ∈ w.ticketNumbers venueId, number < o.number

theorem NumbersRise.of_eq {venueId : Id} {w w' : World} (h : w'.orders = w.orders) :
    NumbersRise venueId w w' where
  kept := by
    unfold World.ticketNumbers
    rw [h]
  above id o hnone hsome := by
    rw [h, hnone] at hsome
    cases hsome

variable {rough : Bool} {venueId : Id}

variable (rough venueId) in
/-- A venue's numbers have no gaps, and rise. -/
abbrev numberProtocol : Protocol (numberServer rough) where
  Inv := GapFree venueId
  Evolves := NumbersRise venueId
  refl _ := NumbersRise.of_eq rfl

/-- What others do in the meantime makes the numbers no fewer. -/
theorem numbers_rely {w w' : World} (h : (numberProtocol rough venueId).Rely w w') :
    (w.ticketNumbers venueId).length ≤ (w'.ticketNumbers venueId).length :=
  h.stable (D := fun u : World =>
      (w.ticketNumbers venueId).length ≤ (u.ticketNumbers venueId).length)
    (fun _ _ hstep hu => hu.trans (NumbersRise.kept hstep).length_le) (le_refl _)

theorem number_query {β : Type} (r : OrderDraft) (v : View api World) (w : World)
    (q : World → β) (hw : GapFree venueId w) :
    (numberProtocol rough venueId).Takes r v ⟨.query q, w, w⟩ :=
  ⟨hw, NumbersRise.of_eq rfl, trivial⟩

section

variable {r : OrderDraft} {v : View api World}

/-- **An insertion under a number that was once the next.** -/
theorem takes_number {w w' : World} {c : Choice} {data : NewOrder} {items : List NewOrderItem}
    {m : ℕ} {x : Except DbError (Id × ℕ)} (hw : GapFree venueId w) (hnumber : data.number = m + 1)
    (hstale : data.venueId = venueId → m ≤ (w.ticketNumbers venueId).length)
    (hx : w.orderCreate c data items = (w', x)) :
    (numberProtocol rough venueId).Takes r v ⟨.orderCreate data items, w, w'⟩ := by
  rcases orderCreate_cases hx with ⟨rfl, _⟩ | ⟨rfl, _, hfree, _⟩
  · exact ⟨hw, NumbersRise.of_eq rfl, trivial⟩
  · have hnew := ticketNumbers_insertOrder w data items venueId
    by_cases hv : data.venueId = venueId
    · rw [if_pos hv] at hnew
      rw [hv, hnumber] at hfree
      have hm := next_of_stale hw (hstale hv) hfree
      refine ⟨?_, ⟨?_, fun id o hnone hsome _ number hmem => ?_⟩, trivial⟩
      · show GapFree venueId (w.insertOrder data items)
        unfold GapFree
        rw [hnew, List.length_append, List.length_singleton, List.range'_1_concat, ← hw, hnumber,
          hm, Nat.add_comm]
      · show _ <+: (w.insertOrder data items).ticketNumbers venueId
        rw [hnew]
        exact List.prefix_append _ _
      · have hget : (w.orders.create _).get? id = some o := hsome
        rw [Rows.get?_create] at hget
        split at hget
        · cases hget
          rw [hw, List.mem_range'_1] at hmem
          show number < data.number
          omega
        · dsimp only at hnone
          rw [hnone] at hget
          cases hget
    · rw [if_neg hv, List.append_nil] at hnew
      refine ⟨?_, ⟨?_, fun id o hnone hsome ho => ?_⟩, trivial⟩
      · show GapFree venueId (w.insertOrder data items)
        unfold GapFree
        rw [hnew]
        exact hw
      · show _ <+: (w.insertOrder data items).ticketNumbers venueId
        rw [hnew]
      · have hget : (w.orders.create _).get? id = some o := hsome
        rw [Rows.get?_create] at hget
        split at hget
        · cases hget
          exact absurd ho hv
        · dsimp only at hnone
          rw [hnone] at hget
          cases hget

/-- One attempt. -/
theorem createOnce_number (draft : OrderDraft) :
    (numberProtocol rough venueId).Ok r (fun _ _ => True) v (createOnce draft) := by
  unfold createOnce
  refine ok_any_query number_query _ (fun w₁ hw₁ _ => ?_) (fun _ => trivial)
  refine ok_any_last (fun w c w' x hw hv _ hx => ⟨?_, trivial⟩)
  rcases hx with hx | ⟨_, rfl, _⟩
  · rw [exec_orderCreate] at hx
    refine takes_number hw rfl (fun hvenue => ?_) hx
    obtain rfl : draft.venueId = venueId := hvenue
    rw [hw₁.lastNumber]
    exact numbers_rely hv
  · exact ⟨hw, NumbersRise.of_eq rfl, trivial⟩

theorem readBack_number (sessionId : Id) (key : Text) :
    (numberProtocol rough venueId).Ok r (fun _ _ => True) v (readBack sessionId key) := by
  unfold readBack
  refine ok_any_query number_query _ (fun w _ _ => ?_) (fun _ => trivial)
  split
  · exact trivial
  · exact trivial

/-- However often it is tried. -/
theorem createAttempts_number (draft : OrderDraft) (n : ℕ) :
    (numberProtocol rough venueId).Ok r (fun _ _ => True) v (createAttempts draft n) := by
  induction n generalizing v with
  | zero => exact trivial
  | succ n ih =>
    unfold createAttempts
    refine Protocol.ok_bind (Protocol.ok_attempt (Protocol.ok_mono (createOnce_number draft)
      (fun v' x _ => ?_)))
    dsimp only
    split
    · exact trivial
    · split
      · exact readBack_number _ _
      · split
        · split
          · exact trivial
          · exact ih
        · exact trivial

end

/-! ## The law -/

theorem numberSound : (numberProtocol rough venueId).Sound (fun _ _ _ => True) where
  env e w hw := by
    cases e with
    | tick ms => exact ⟨hw, NumbersRise.of_eq rfl⟩
    | crash => exact ⟨hw, NumbersRise.of_eq rfl⟩
  entry r _ _ := createAttempts_number r NUMBER_RETRIES

/-- **Ticket numbers have no gaps and rise.** From a venue without orders, in every state of
every run the numbers of its `n` orders are `1` to `n`, and an order a step commits has a
number above all those committed before. -/
theorem numbers_gapFree (rough : Bool) (venueId : Id) (w₀ : World)
    (h₀ : ∀ id o, w₀.orders.get? id = some o → o.venueId ≠ venueId)
    (acts : List (numberServer rough).Action) :
    GapFree venueId (numberRun rough w₀ acts).world
      ∧ ∀ pre a post, acts = pre ++ a :: post → ∀ id o,
        (numberRun rough w₀ pre).world.orders.get? id = none →
        (numberRun rough w₀ (pre ++ [a])).world.orders.get? id = some o → o.venueId = venueId →
        ∀ number ∈ (numberRun rough w₀ pre).world.ticketNumbers venueId, number < o.number := by
  have hinit : GapFree venueId w₀ := by
    unfold GapFree
    rw [ticketNumbers_nil h₀]
    rfl
  have hmeets : ∀ acts : List (numberServer rough).Action,
      (Sys.Pool.init w₀).Meets (numberProtocol rough venueId).cond acts = true :=
    fun acts => (numberProtocol rough venueId).meets_cond (fun _ _ _ _ _ => rfl) _ acts
  refine ⟨(numberSound.run hinit (hmeets acts)).inv, ?_⟩
  rintro pre a post rfl
  exact (numberSound.run_step hinit (hmeets (pre ++ a :: post))).above

/-- Two submissions of a venue read the same last number, and both insert: the second finds
the number taken and tries again. -/
def raced : List (numberServer false).Action :=
  let draft : OrderDraft := ⟨0, 0, 0, none, 100, none, []⟩
  [.arrive draft, .arrive draft, .step 0 plain, .step 1 plain, .step 0 plain, .step 1 plain,
    .step 1 plain, .step 1 plain]

example : (numberRun false (World.blank 0) raced).world.ticketNumbers 0 = [1, 2] := by decide

theorem numbers_gapFree_raced : GapFree 0 (numberRun false (World.blank 0) raced).world :=
  (numbers_gapFree false 0 (World.blank 0) (fun _ _ h => by cases h) raced).1

end Masadan
