import Masadan.HouseHandlers

/-!
# Staff keep house

The handlers of the desk and of the panel. A member of staff reads the row first, under the
venue of the token, and then writes by id alone; what makes this right is that the row of an
id never changes its venue (`Kept`).
-/

namespace Masadan

variable {hmac : Hmac} {bcrypt : Bcrypt} {r : HouseRequest} {v : View api World}

/-- What staff may touch: of some kinds, what is their venue's and as `A` says. -/
abbrev MayIn (r : HouseRequest) (v : View api World) (kinds : List Kind) (A : Addr → Prop)
    (venueId : Id) : Prop :=
  May r v (fun k a => k ∈ kinds ∧ A a ∧ a.venue = venueId)

theorem MayIn.extend {kinds : List Kind} {A : Addr → Prop} {venueId : Id} {v' : View api World}
    (h : MayIn r v kinds A venueId) (hpast : v.past <:+ v'.past) : MayIn r v' kinds A venueId :=
  fun past k a hv' => h past k a (hpast.trans hv')

/-- Whatever there is. -/
abbrev anyAddr : Addr → Prop := fun _ => True

/-! ## Orders -/

/-- What an update answers is the order as it was read, as far as orders are kept. -/
theorem orderUpdate_kept {c : Choice} {w₁ w w' : World} {id : Id} {data : Order → Order}
    {o updated : Order} (hexec : World.exec c (.orderUpdate id data) w = (w', .ok updated))
    (hw : Kept w₁ w) (ho : w₁.orders.get? id = some o) (hdata : ∀ o, OrderKept o (data o)) :
    OrderKept o updated := by
  have hx : w.orderUpdate id data = (w', .ok updated) := hexec
  unfold World.orderUpdate at hx
  split at hx
  · cases hx
  · next o' ho' =>
    cases hx
    exact (hw.orders.same ho ho').trans (hdata o')

/-- **The desk moves an order** of its venue. -/
theorem patchOrder_house {staff : Option StaffClaims} {id : Id} {body : PatchBody}
    (hmay : ∀ s, staff = some s → MayIn r v [.order, .news] (fun a => a.order = some id) s.venueId) :
    HouseOk hmac bcrypt r (fun _ _ => True) v (patchOrder staff id body) := by
  unfold patchOrder
  cases staff with
  | none => exact houseOk_ret trivial
  | some staff =>
    have hM := hmay staff rfl
    have hnews : ∀ {v' : View api World} {o o' : Order} {w' : World} {a : PatchAnswer},
        v.past <:+ v'.past → w'.orders.get? id = some o → OrderKept o o' → Kept w' v'.since →
        o.venueId = staff.venueId → HouseOk hmac bcrypt r (fun _ _ => True) v'
          ((perform (.publish (.order_updated staff.venueId id o'.sessionId o'.tableId))).bind
            (fun _ => .ret a)) := by
      intro v' o o' w' a hpast ho hsame hkept hof
      refine houseOk_perform (fun w _ hw => ⟨?_, hM _ _ _ hpast ⟨by decide, rfl, rfl⟩⟩)
        (fun _ _ _ _ _ _ _ _ => houseOk_ret trivial)
      have hnow := hkept.trans hw
      obtain ⟨o'', ho'', hsame'⟩ := hnow.orders.found hnow.ordersStay ho
      exact ⟨o'', ho'', hsame'.venueId.trans hof, hsame'.sessionId.trans hsame.sessionId.symm,
        hsame'.tableId.trans hsame.tableId.symm⟩
    refine houseOk_read _ (fun w₁ _ _ => ?_)
    split
    · exact houseOk_ret trivial
    · next order horder =>
      obtain ⟨ho, hvenue⟩ := Option.filter_eq_some_iff.mp horder
      split
      · exact houseOk_ret trivial
      · split
        · exact houseOk_ret trivial
        · refine houseOk_perform (fun w _ hw o ho' => ?_) (fun c w w' updated _ hw hw' hexec => ?_)
          · have hsame := hw.orders.same ho ho'
            exact ⟨⟨rfl, rfl, rfl, .inl rfl, rfl, rfl, rfl⟩, hM _ _ _ (List.suffix_cons _ _)
              ⟨by decide, rfl, hsame.venueId.trans (beq_iff_eq.mp hvenue)⟩⟩
          · have hupdated : OrderKept order updated := orderUpdate_kept hexec hw ho
              (fun o => ⟨rfl, rfl, rfl, .inl rfl, rfl, rfl, rfl⟩)
            show HouseOk _ _ _ _ _ (if _ then _ else _)
            split
            · exact houseOk_perform (fun _ _ _ => trivial) (fun _ _ _ _ _ _ hw'' _ =>
                hnews ⟨[_, _, _], rfl⟩ ho hupdated (hw'.trans hw'') (beq_iff_eq.mp hvenue))
            · exact hnews ⟨[_, _], rfl⟩ ho hupdated hw' (beq_iff_eq.mp hvenue)

/-- No entry of an edit that goes through raises a quantity. -/
theorem collectEdits_lowers {o : OrderForEdit} {lines : List EditLine}
    {es : List (LineChange × LineEdit)} (h : collectEdits o lines = some es) {l : EditLine}
    (hl : l ∈ lines) {i : OrderItem} (hi : o.byId l.itemId = some i) : l.qty ≤ i.qty := by
  induction lines generalizing es with
  | nil => cases hl
  | cons l' rest ih =>
    unfold collectEdits at h
    split at h
    · cases h
    · next i' hi' =>
      split at h
      · cases h
      · next hle =>
        rcases List.mem_cons.mp hl with rfl | hl
        · rw [hi] at hi'
          cases hi'
          exact Nat.not_lt.mp hle
        · split at h
          · obtain ⟨others, hothers, _⟩ := Option.map_eq_some_iff.mp h
            exact ih hothers hl
          · exact ih h hl

/-- **A correction** is of lines of its order. -/
theorem editOrder_house {orderId venueId staffId : Id} {staffName : Text} {input : OrderEditInput}
    (hM : MayIn r v [.order, .item, .edit, .news] (fun a => a.order = some orderId) venueId) :
    HouseOk hmac bcrypt r (fun _ _ => True) v
      (editOrder orderId venueId staffId staffName input) := by
  unfold editOrder
  refine houseOk_read _ (fun w₁ _ _ => ?_)
  split
  · exact houseOk_ret trivial
  · next found hfound =>
    obtain ⟨order, hrow, rfl⟩ := Option.map_eq_some_iff.mp hfound
    obtain ⟨ho, hvenue⟩ := Option.filter_eq_some_iff.mp hrow
    split
    · exact houseOk_ret trivial
    · next plan hplan =>
      obtain ⟨_, ⟨changed, hchanged, _, hedits, _⟩, _⟩ := planEdit_spec hplan
      refine houseOk_perform (fun w _ hw => ⟨fun e he => ?_, fun o ho' k hk => ?_⟩)
        (fun _ w w' committed _ _ hw' _ => ?_)
      · -- an entry lowers a line that was the order's, and still is
        obtain ⟨l, hl, i, hi, hne, rfl⟩ := (mem_collectEdits hchanged).mp (hedits ▸ he)
        obtain ⟨hitem, hp⟩ := Rows.mem_filter.mp ((byId_eq_some hfound).mp hi)
        refine ⟨collectEdits_lowers hchanged hl hi, fun i' hi' => ?_⟩
        exact (hw.items.same hitem hi').orderId.trans
          (beq_iff_eq.mp (Bool.and_eq_true_iff.mp hp).1)
      · have hsame := hw.orders.same ho ho'
        refine hM _ _ _ (List.suffix_cons _ _)
          ⟨?_, rfl, hsame.venueId.trans (beq_iff_eq.mp hvenue)⟩
        rcases List.mem_cons.mp hk with rfl | hk
        · decide
        · rcases List.mem_cons.mp hk with rfl | hk
          · decide
          · obtain rfl := List.mem_singleton.mp hk
            decide
      · show HouseOk _ _ _ _ _ (if _ then _ else _)
        split
        · exact houseOk_ret trivial
        · refine houseOk_perform (fun w _ hw'' => ⟨?_, hM _ _ _ ⟨[_, _], rfl⟩ ⟨by decide, rfl, rfl⟩⟩)
            (fun _ _ _ _ _ _ _ _ => houseOk_ret trivial)
          have hnow := hw'.trans hw''
          obtain ⟨o', ho', hsame⟩ := hnow.orders.found hnow.ordersStay ho
          exact ⟨o', ho', hsame.venueId.trans (beq_iff_eq.mp hvenue), hsame.sessionId, hsame.tableId⟩

theorem patchItems_house {staff : Option StaffClaims} {id : Id} {lines : Option (List (Id × ℤ))}
    (hmay : ∀ s, staff = some s →
      MayIn r v [.order, .item, .edit, .news] (fun a => a.order = some id) s.venueId) :
    HouseOk hmac bcrypt r (fun _ _ => True) v (patchItems staff id lines) := by
  unfold patchItems
  cases staff with
  | none => exact houseOk_ret trivial
  | some staff =>
    dsimp only
    split
    · exact houseOk_ret trivial
    · refine houseOk_bind (editOrder_house (hmay staff rfl)) (fun v₁ result _ _ _ => ?_)
      cases result with
      | error e => exact houseOk_ret trivial
      | ok done =>
        show HouseOk _ _ _ _ _ (if _ then _ else _)
        split
        · exact houseOk_perform (fun _ _ _ => trivial)
            (fun _ _ _ _ _ _ _ _ => houseOk_ret trivial)
        · exact houseOk_ret trivial

/-! ## Bills -/

/-- A request for the bill is dismissed by the desk of its venue. -/
theorem dismissBill_house {staff : Option StaffClaims} {id : Id}
    (hmay : ∀ s, staff = some s → MayIn r v [.visit, .news] anyAddr s.venueId) :
    HouseOk hmac bcrypt r (fun _ _ => True) v (dismissBill staff id) := by
  unfold dismissBill
  cases staff with
  | none => exact houseOk_ret trivial
  | some staff =>
    refine houseOk_bind (clearBillRequest_house (fun w visit _ hvisit k hk => ?_))
      (fun v₁ ok _ _ _ => ?_)
    · rintro past k' _ hpast ⟨rfl, rfl⟩
      exact hmay staff rfl past k' _ hpast
        ⟨hk, trivial, beq_iff_eq.mp (Option.filter_eq_some_iff.mp hvisit).2⟩
    · show HouseOk _ _ _ _ _ (if _ then _ else _)
      split
      · exact houseOk_ret trivial
      · exact houseOk_ret trivial

/-- **A settlement** closes the visit, and marks orders and revokes sessions that are of it. -/
theorem takePayment_house {visitId venueId tableId : Id} {input : SettleInput}
    (hvisit : ∀ w visit, Kept v.since w → w.tableVisits.get? visitId = some visit →
      visit.venueId = venueId)
    (hM : MayIn r v [.visit, .order, .session, .news] anyAddr venueId) :
    HouseOk hmac bcrypt r (fun _ _ => True) v (takePayment visitId venueId tableId input) := by
  unfold takePayment
  refine houseOk_read _ (fun w₁ hw₁ hv₁ => ?_)
  refine houseOk_read _ (fun w₂ hw₂ hv₂ => ?_)
  refine houseOk_perform (fun w hw hv => ⟨fun visit hget => ⟨⟨rfl, rfl, rfl⟩, ?_⟩,
    fun id hid o ho => ?_, fun id hid s hs => ?_⟩) (fun _ w w' count _ _ _ _ => ?_)
  · exact hM _ _ _ ⟨[_, _], rfl⟩ ⟨by decide, trivial,
      hvisit w visit (hv₁.trans (hv₂.trans hv)) hget⟩
  · -- an order of the bill was of the visit when the bill was made out
    cases hbill : w₁.buildBill visitId with
    | none =>
      rw [hbill] at hid
      cases hid
    | some bill =>
      rw [hbill] at hid
      obtain ⟨row, hrow, rfl⟩ := List.mem_map.mp ((buildBill_orderIds hbill).mem_iff.mp hid)
      obtain ⟨ho₁, hp⟩ := Rows.mem_filter.mp hrow
      have hof : row.2.visitId = some visitId := beq_iff_eq.mp (Bool.and_eq_true_iff.mp hp).1
      obtain ⟨visit, hget, _⟩ := (hw₁.orders _ _ ho₁).2 visitId hof
      refine hM _ _ _ ⟨[_, _], rfl⟩ ⟨by decide, trivial, ?_⟩
      exact ((hv₂.trans hv).orders.same ho₁ ho).venueId.trans
        ((hw₁.order_at ho₁ hof hget).2.trans (hvisit w₁ visit hv₁ hget))
  · obtain ⟨row, hrow, rfl⟩ := List.mem_map.mp hid
    obtain ⟨hs₂, hp⟩ := Rows.mem_filter.mp hrow
    have hof : row.2.visitId = some visitId := beq_iff_eq.mp (Bool.and_eq_true_iff.mp hp).1
    obtain ⟨visit, hget, _⟩ := (hw₂.sessions _ _ hs₂).2 visitId hof
    refine hM _ _ _ ⟨[_, _], rfl⟩ ⟨by decide, trivial, ?_⟩
    exact (hv.sessions.same hs₂ hs).venueId.trans
      ((hw₂.session_at hs₂ hof hget).2.trans (hvisit w₂ visit (hv₁.trans hv₂) hget))
  · show HouseOk _ _ _ _ _ (if _ then _ else _)
    split
    · exact houseOk_ret trivial
    · exact houseOk_perform
        (fun _ _ _ => ⟨trivial, hM _ _ _ ⟨[_, _, _], rfl⟩ ⟨by decide, trivial, rfl⟩⟩)
        (fun _ _ _ _ _ _ _ _ => houseOk_ret trivial)

theorem settleVisit_house {visitId venueId : Id} {input : SettleInput}
    (hM : MayIn r v [.visit, .order, .session, .news] anyAddr venueId) :
    HouseOk hmac bcrypt r (fun _ _ => True) v (settleVisit visitId venueId input) := by
  unfold settleVisit
  refine houseOk_read _ (fun w₁ _ _ => ?_)
  split
  · exact houseOk_ret trivial
  · next visit hfound =>
    obtain ⟨hrow, hvenue⟩ := Option.filter_eq_some_iff.mp hfound
    split
    · exact houseOk_ret trivial
    · refine houseOk_bind (houseOk_aside (ordersInFlight_aside visitId input.force))
        (fun v₂ inFlight _ hpast hkept => ?_)
      show HouseOk _ _ _ _ _ (if _ then _ else _)
      split
      · exact houseOk_ret trivial
      · refine takePayment_house (fun w visit' hw hget => ?_)
          (hM.extend ((List.suffix_cons _ _).trans hpast))
        exact ((hkept.trans hw).visits.same hrow hget).venueId.trans (beq_iff_eq.mp hvenue)

theorem settleBill_house {staff : Option StaffClaims} {id : Id} {body : Option RawSettle}
    (hmay : ∀ s, staff = some s → MayIn r v [.visit, .order, .session, .news] anyAddr s.venueId) :
    HouseOk hmac bcrypt r (fun _ _ => True) v (settleBill staff id body) := by
  unfold settleBill
  cases staff with
  | none => exact houseOk_ret trivial
  | some staff =>
    dsimp only
    split
    · exact houseOk_ret trivial
    · refine houseOk_bind (settleVisit_house (hmay staff rfl)) (fun v₁ result _ _ _ => ?_)
      cases result with
      | error e => exact houseOk_ret trivial
      | ok totalKurus => exact houseOk_ret trivial

/-! ## Sessions and tables -/

/-- **A manager revokes a session** of the venue. -/
theorem deleteSession_house {staff : Option StaffClaims} {id : Id}
    (hmay : ∀ s, staff = some s → MayIn r v [.session, .news] (fun a => a.session = some id) s.venueId) :
    HouseOk hmac bcrypt r (fun _ _ => True) v (deleteSession staff id) := by
  unfold deleteSession
  cases staff with
  | none => exact houseOk_ret trivial
  | some staff =>
    have hM := hmay staff rfl
    refine houseOk_read _ (fun w₁ _ _ => ?_)
    split
    · exact houseOk_ret trivial
    · next session hsession =>
      obtain ⟨hrow, hvenue⟩ := Option.filter_eq_some_iff.mp hsession
      refine houseOk_perform (fun w _ hw s hs => ⟨SessionKept.revoke w.now s, ?_⟩)
        (fun _ _ _ _ _ _ _ _ => ?_)
      · exact hM _ _ _ (List.suffix_cons _ _) ⟨by decide, rfl,
          (hw.sessions.same hrow hs).venueId.trans (beq_iff_eq.mp hvenue)⟩
      · exact houseOk_perform (fun _ _ _ => ⟨trivial, hM _ _ _ ⟨[_, _], rfl⟩ ⟨by decide, rfl, rfl⟩⟩)
          (fun _ _ _ _ _ _ _ _ => houseOk_ret trivial)

theorem createTable_house {staff : Option StaffClaims} {name : Option Text} {code : Text}
    (hmay : ∀ s, staff = some s → MayIn r v [.table] anyAddr s.venueId) :
    HouseOk hmac bcrypt r (fun _ _ => True) v (createTable staff name code) := by
  unfold createTable
  cases staff with
  | none => exact houseOk_ret trivial
  | some staff =>
    dsimp only
    split
    · exact houseOk_ret trivial
    · exact houseOk_perform
        (fun _ _ _ id => hmay staff rfl _ _ _ List.suffix_rfl ⟨by decide, trivial, rfl⟩)
        (fun _ _ _ _ _ _ _ _ => houseOk_ret trivial)

/-- **A manager changes a table**, or resets its code. The sessions that go are at the table. -/
theorem patchTable_house {staff : Option StaffClaims} {id : Id} {body : TablePatch}
    (hmay : ∀ s, staff = some s → MayIn r v [.table, .session] (fun a => a.table = some id) s.venueId) :
    HouseOk hmac bcrypt r (fun _ _ => True) v (patchTable staff id body) := by
  unfold patchTable
  cases staff with
  | none => exact houseOk_ret trivial
  | some staff =>
    have hM := hmay staff rfl
    refine houseOk_read _ (fun w₁ _ _ => ?_)
    split
    · exact houseOk_ret trivial
    · next table htable =>
      obtain ⟨hrow, hvenue⟩ := Option.filter_eq_some_iff.mp htable
      have hnow : ∀ {w : World} {t : Table}, Kept w₁ w → w.tables.get? id = some t →
          t.venueId = staff.venueId := fun hw ht =>
        (hw.tables.same hrow ht).venueId.trans (beq_iff_eq.mp hvenue)
      split
      · refine houseOk_read _ (fun w₂ hw₂ hv₂ => ?_)
        refine houseOk_perform (fun w hw hv => ⟨fun t ht => hM _ _ _ ⟨[_, _], rfl⟩
          ⟨by decide, rfl, hnow (hv₂.trans hv) ht⟩, fun k hk s hs => ?_⟩)
          (fun _ _ _ _ _ _ _ _ => houseOk_ret trivial)
        obtain ⟨row, hlisted, rfl⟩ := List.mem_map.mp hk
        obtain ⟨hs₂, hp⟩ := Rows.mem_filter.mp hlisted
        have hat : row.2.tableId = id := beq_iff_eq.mp (Bool.and_eq_true_iff.mp hp).1
        obtain ⟨t, ht, hof⟩ := (hw₂.sessions _ _ hs₂).1
        refine hM _ _ _ ⟨[_, _], rfl⟩ ⟨by decide,
          congrArg some ((hv.sessions.same hs₂ hs).tableId.trans hat), ?_⟩
        exact (hv.sessions.same hs₂ hs).venueId.trans (hof.symm.trans (hnow hv₂ (hat ▸ ht)))
      · refine houseOk_perform (fun w _ hw t ht => ⟨⟨rfl, rfl, le_refl _⟩, ?_⟩)
          (fun _ _ _ _ _ _ _ _ => houseOk_ret trivial)
        exact hM _ _ _ (List.suffix_cons _ _) ⟨by decide, rfl, hnow hw ht⟩

/-- **A rotation** reaches the tables and the sessions of the venue. -/
theorem postQrSecret_house {staff : Option StaffClaims} {confirmed : Bool} {secret : Text}
    (hmay : ∀ s, staff = some s → MayIn r v [.venue, .table, .session] anyAddr s.venueId) :
    HouseOk hmac bcrypt r (fun _ _ => True) v (postQrSecret staff confirmed secret) := by
  unfold postQrSecret
  cases staff with
  | none => exact houseOk_ret trivial
  | some staff =>
    have hM := hmay staff rfl
    dsimp only
    split
    · exact houseOk_ret trivial
    · refine houseOk_bind (R := fun _ _ => True) ?_ (fun _ _ _ _ _ => houseOk_ret trivial)
      unfold rotateQrSecret
      refine houseOk_read _ (fun w₁ _ _ => ?_)
      refine houseOk_last (fun w _ hw => ⟨hM _ _ _ (List.suffix_cons _ _) ⟨by decide, trivial, rfl⟩,
        fun id => hM _ _ _ (List.suffix_cons _ _) ⟨by decide, trivial, rfl⟩, fun k hk s hs => ?_⟩)
      obtain ⟨row, hlisted, rfl⟩ := List.mem_map.mp hk
      obtain ⟨hs₁, hp⟩ := Rows.mem_filter.mp hlisted
      refine hM _ _ _ (List.suffix_cons _ _) ⟨by decide, trivial, ?_⟩
      exact (hw.sessions.same hs₁ hs).venueId.trans (beq_iff_eq.mp (Bool.and_eq_true_iff.mp hp).1)

/-- A delivery of the venue is printed again. -/
theorem retryDelivery_house {staff : Option StaffClaims} {id : Id}
    (hmay : ∀ s, staff = some s → MayIn r v [.delivery] anyAddr s.venueId) :
    HouseOk hmac bcrypt r (fun _ _ => True) v (retryDelivery staff id) := by
  unfold retryDelivery
  cases staff with
  | none => exact houseOk_ret trivial
  | some staff =>
    refine houseOk_read _ (fun w₁ _ _ => ?_)
    split
    · exact houseOk_ret trivial
    · next delivery hfound =>
      obtain ⟨hrow, hvenue⟩ := Option.filter_eq_some_iff.mp hfound
      refine houseOk_perform (fun w _ hw d hd => ⟨⟨rfl, rfl, rfl, rfl, rfl⟩, ?_⟩)
        (fun _ _ _ _ _ _ _ _ => houseOk_ret trivial)
      exact hmay staff rfl _ _ _ (List.suffix_cons _ _) ⟨List.mem_singleton_self _, trivial,
        (hw.deliveries.same hrow hd).venueId.trans (beq_iff_eq.mp hvenue)⟩

/-! ## Accounts -/

/-- **A manager opens an account** of the venue. -/
theorem postStaff_house {staff : Option StaffClaims} {body : Option StaffCreate} {salt : ℕ}
    (hmay : ∀ s, staff = some s → MayIn r v [.staff] anyAddr s.venueId) :
    HouseOk hmac bcrypt r (fun _ _ => True) v (postStaff bcrypt staff body salt) := by
  unfold postStaff
  cases staff with
  | none => exact houseOk_ret trivial
  | some staff =>
    dsimp only
    split
    · exact houseOk_ret trivial
    · refine houseOk_bind (R := fun _ _ => True) ?_ (fun _ result _ _ _ => ?_)
      · unfold createStaff
        refine houseOk_bind (houseOk_attempt (houseOk_last (fun _ _ _ id =>
          hmay staff rfl _ _ _ List.suffix_rfl ⟨List.mem_singleton_self _, trivial, rfl⟩)))
          (fun _ user _ _ _ => ?_)
        split
        · exact houseOk_ret trivial
        · exact houseOk_ret trivial
        · exact houseOk_raise
      · cases result with
        | error e => exact houseOk_ret trivial
        | ok id => exact houseOk_ret trivial

theorem StaffKept.write (d : StaffData) (u : StaffUser) : StaffKept u (d.write u) := by
  refine ⟨rfl, rfl, ?_⟩
  show u.tokenVersion ≤ if d.tokenVersion then u.tokenVersion + 1 else u.tokenVersion
  split
  · exact (lt_add_one _).le
  · exact le_refl _

/-- **A manager changes an account** of the venue. -/
theorem patchStaff_house {staff : Option StaffClaims} {id : Id} {body : Option StaffUpdate}
    {salt : ℕ} (hmay : ∀ s, staff = some s → MayIn r v [.staff] (fun a => a.account = some id) s.venueId) :
    HouseOk hmac bcrypt r (fun _ _ => True) v (patchStaff bcrypt staff id body salt) := by
  unfold patchStaff
  cases staff with
  | none => exact houseOk_ret trivial
  | some staff =>
    dsimp only
    split
    · exact houseOk_ret trivial
    · next input =>
      refine houseOk_bind (R := fun _ _ => True) ?_ (fun _ result _ _ _ => ?_)
      · unfold updateStaff
        refine houseOk_read _ (fun w₁ _ _ => ?_)
        split
        · exact houseOk_ret trivial
        · next target hfound =>
          obtain ⟨hrow, hvenue⟩ := Option.filter_eq_some_iff.mp hfound
          split
          · exact houseOk_ret trivial
          · split
            · exact houseOk_ret trivial
            · refine houseOk_bind (R := fun _ _ => True) ?_ (fun v₂ last _ hpast hkept => ?_)
              · split
                · exact houseOk_map (houseOk_last (fun _ _ _ => trivial))
                · exact houseOk_ret trivial
              · show HouseOk _ _ _ _ _ (if _ then _ else _)
                split
                · exact houseOk_ret trivial
                · split
                  · exact houseOk_ret trivial
                  · refine houseOk_perform (fun w _ hw u hu => ⟨StaffKept.write _ u, ?_⟩)
                      (fun _ _ _ _ _ _ _ _ => houseOk_perform (fun _ _ _ => trivial)
                        (fun _ _ _ _ _ _ _ _ => houseOk_ret trivial))
                    exact hmay staff rfl _ _ _ ((List.suffix_cons _ _).trans hpast)
                      ⟨List.mem_singleton_self _, rfl, ((hkept.trans hw).staff.same hrow hu).venueId.trans
                        (beq_iff_eq.mp hvenue)⟩
      · cases result with
        | error e => exact houseOk_ret trivial
        | ok done => exact houseOk_ret trivial

/-- **Staff change their own password** and nobody else's. -/
theorem postPassword_house {token : Option TokenClaims} {ip : Text} {body : Option PasswordChange}
    {salt : ℕ} (hmay : ∀ past a, (∃ c, token = some c ∧ a.account = c.sub) →
      r.mayTouch past .staff a) :
    HouseOk hmac bcrypt r (fun _ _ => True) v (postPassword bcrypt token ip body salt) := by
  unfold postPassword
  refine houseOk_bind (houseOk_aside (getStaff_aside token)) (fun v₁ found hfound _ _ => ?_)
  cases found with
  | none => exact houseOk_ret trivial
  | some staff =>
    obtain ⟨c, hc, _, hsub⟩ := hfound staff rfl
    refine houseOk_perform (fun _ _ _ => trivial) (fun _ _ _ limit _ _ _ _ => ?_)
    show HouseOk _ _ _ _ _ (if _ then _ else _)
    split
    · exact houseOk_ret trivial
    · split
      · exact houseOk_ret trivial
      · refine houseOk_bind (R := fun _ _ => True) ?_ (fun v₂ result _ _ _ => ?_)
        · unfold changeOwnPassword
          refine houseOk_read _ (fun w₁ _ _ => ?_)
          split
          · exact houseOk_ret trivial
          · split
            · exact houseOk_ret trivial
            · refine houseOk_perform (fun w _ _ u _ => ⟨⟨rfl, rfl, (lt_add_one _).le⟩, ?_⟩)
                (fun _ _ _ _ _ _ _ _ => houseOk_perform (fun _ _ _ => trivial)
                  (fun _ _ _ _ _ _ _ _ => houseOk_ret trivial))
              exact hmay _ _ ⟨c, hc, hsub.symm⟩
        · cases result with
          | error e => exact houseOk_ret trivial
          | ok done =>
            refine houseOk_read _ (fun w _ _ => ?_)
            split
            · exact houseOk_raise
            · exact houseOk_ret trivial

/-! ## The routes -/

theorem getDeskOrders_aside (staff : Option StaffClaims) (all : Option Text) :
    (getDeskOrders staff all).Calls Call.Aside (fun _ => True) := by
  unfold getDeskOrders
  cases staff with
  | none => exact trivial
  | some staff => exact Prog.calls_bind (Prog.calls_perform (S := api) trivial) (fun _ _ => trivial)

theorem getDeskBills_aside (staff : Option StaffClaims) :
    (getDeskBills staff).Calls Call.Aside (fun _ => True) := by
  unfold getDeskBills
  cases staff with
  | none => exact trivial
  | some staff => exact Prog.calls_bind (Prog.calls_perform (S := api) trivial) (fun _ _ => trivial)

theorem getDeskBill_aside (staff : Option StaffClaims) (id : Id) :
    (getDeskBill staff id).Calls Call.Aside (fun _ => True) := by
  unfold getDeskBill
  cases staff with
  | none => exact trivial
  | some staff =>
    refine Prog.calls_bind (Prog.calls_perform (S := api) trivial) (fun visit _ => ?_)
    cases visit with
    | none => exact trivial
    | some visit =>
      refine Prog.calls_bind (Prog.calls_perform (S := api) trivial) (fun bill _ => ?_)
      cases bill with
      | none => exact trivial
      | some bill => exact trivial

theorem getExport_aside (staff : Option StaffClaims) (days : Option Text) :
    (getExport staff days).Calls Call.Aside (fun _ => True) := by
  unfold getExport
  cases staff with
  | none => exact trivial
  | some staff =>
    refine Prog.calls_bind (Prog.calls_perform (S := api) trivial) (fun now _ => ?_)
    exact Prog.calls_bind (Prog.calls_perform (S := api) trivial) (fun _ _ => trivial)

theorem getOrders_aside (staff : Option StaffClaims) (days limit : Option Text)
    (cursor : Option Id) :
    (getOrders (fun id : Id => id) staff days limit cursor).Calls Call.Aside (fun _ => True) := by
  unfold getOrders
  cases staff with
  | none => exact trivial
  | some staff =>
    refine Prog.calls_bind (Prog.calls_perform (S := api) trivial) (fun now _ => ?_)
    refine Prog.calls_bind (Prog.calls_perform (S := api) trivial) (fun page _ => ?_)
    cases page with
    | ok page => exact trivial
    | error e => exact trivial

theorem periodReport_aside (venueId : Id) (start stop : Time) :
    (periodReport venueId start stop).Calls Call.Aside (fun _ => True) := by
  unfold periodReport
  refine Prog.calls_bind (Prog.calls_perform (S := api) trivial) (fun _ _ => ?_)
  refine Prog.calls_bind (Prog.calls_perform (S := api) trivial) (fun _ _ => ?_)
  refine Prog.calls_bind (Prog.calls_perform (S := api) trivial) (fun _ _ => ?_)
  exact Prog.calls_bind (Prog.calls_perform (S := api) trivial) (fun _ _ => trivial)

theorem getStats_aside (staff : Option StaffClaims) (offset : Time) :
    (getStats staff offset).Calls Call.Aside (fun _ => True) := by
  unfold getStats
  cases staff with
  | none => exact trivial
  | some staff =>
    refine Prog.calls_bind (Prog.calls_perform (S := api) trivial) (fun today _ => ?_)
    refine Prog.calls_bind (Prog.calls_perform (S := api) trivial) (fun yesterday _ => ?_)
    split
    · refine Prog.calls_bind (periodReport_aside _ _ _) (fun _ _ => ?_)
      refine Prog.calls_bind (periodReport_aside _ _ _) (fun _ _ => ?_)
      exact Prog.calls_bind (Prog.calls_perform (S := api) trivial) (fun _ _ => trivial)
    · exact trivial

/-- **A staff route** touches what it writes, of the venue of whoever is asking. -/
theorem staffRoute_house {staff : Option StaffClaims} (route : StaffRoute)
    (hmay : ∀ s, staff = some s → MayIn r v route.writes route.about s.venueId) :
    HouseOk hmac bcrypt r (fun _ _ => True) v (route.prog bcrypt staff) := by
  cases route with
  | deskOrders all => exact houseOk_map (houseOk_aside (getDeskOrders_aside staff all))
  | patchOrder id body => exact houseOk_map (patchOrder_house hmay)
  | patchItems id lines => exact houseOk_map (patchItems_house hmay)
  | deskBills => exact houseOk_map (houseOk_aside (getDeskBills_aside staff))
  | deskBill id => exact houseOk_map (houseOk_aside (getDeskBill_aside staff id))
  | dismissBill id => exact houseOk_map (dismissBill_house hmay)
  | settleBill id body => exact houseOk_map (settleBill_house hmay)
  | exportOrders days => exact houseOk_map (houseOk_aside (getExport_aside staff days))
  | orderLog days limit cursor =>
    exact houseOk_map (houseOk_aside (getOrders_aside staff days limit cursor))
  | stats offset => exact houseOk_map (houseOk_aside (getStats_aside staff offset))
  | createTable name code => exact houseOk_map (createTable_house hmay)
  | patchTable id body => exact houseOk_map (patchTable_house hmay)
  | rotateSecret confirmed secret => exact houseOk_map (postQrSecret_house hmay)
  | endSession id => exact houseOk_map (deleteSession_house hmay)
  | retryDelivery id => exact houseOk_map (retryDelivery_house hmay)
  | createStaff body salt => exact houseOk_map (postStaff_house hmay)
  | updateStaff id body salt => exact houseOk_map (patchStaff_house hmay)

end Masadan
