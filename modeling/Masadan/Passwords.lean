import Masadan.Accounts

/-!
# Two changes of one password

A member of staff changes their password while an admin resets it. One of the two is
the later one, and what it sets should be what counts: both answers, and the hash that
is left, should be those of the two calls made one after the other.

`updateStaff` takes its place where it writes, whatever it has read, since a change of
password changes nothing it reads. `changeOwnPassword` compares the current password in
one call and writes in another. When the reset falls between the two, the change is
authorised by a password that is no longer current, answers ok, and undoes the reset
(`passwords_linear_fails`). When the current password matches what is stored as the
change is written, the two calls are linearizable (`passwords_linear`).
-/

namespace Masadan

/-- The password hash in force. -/
def World.passwordHash (w : World) (staffId : Id) : Option Text :=
  (w.staffUsers.get? staffId).map (fun u => u.passwordHash)

/-- **The current password is still current** as the change is written. -/
def stillCurrent (bcrypt : Bcrypt) (r : StaffRequest) (op : Call) (w : World) : Bool :=
  match r, op with
  | .changePassword staffId input _, .staffUserUpdate _ _ =>
    (w.passwordHash staffId).any (fun hash => bcrypt.compare input.currentPassword hash)
  | _, _ => true

/-- What the requests promise when the current password is still current. -/
abbrev passwordProtocol (bcrypt : Bcrypt) : Protocol (staffServer bcrypt false) :=
  (staffProtocol bcrypt false).under (fun r _ _ op w => stillCurrent bcrypt r op w)

/-- A request served with nobody else about. -/
def StaffRequest.alone (bcrypt : Bcrypt) (r : StaffRequest) (w : World) :
    World × Except DbError StaffAnswer :=
  (r.prog bcrypt).runAlone (World.exec plain) w

/-- **One change of a password and one reset of it**, and the world they meet in. -/
structure PasswordRace where
  bcrypt : Bcrypt
  staffId : Id
  input : PasswordChange
  salt : ℕ
  venueId : Id
  actorId : Id
  reset : StaffUpdate
  resetSalt : ℕ
  password : Text
  hasPassword : reset.password = some password
  first : World

namespace PasswordRace

variable (s : PasswordRace)

def change : StaffRequest := .changePassword s.staffId s.input s.salt

def update : StaffRequest := .update s.venueId s.staffId s.actorId s.reset s.resetSalt

/-- Both calls at their start; nothing else arrives. -/
def pool : (staffServer s.bcrypt false).Pool :=
  ⟨s.first, [Sys.start s.change s.first, Sys.start s.update s.first]⟩

/-- The hash the reset sets. -/
def resetHash : Text := s.bcrypt.hash s.resetSalt s.password

/-- What the change writes. -/
def changeData : StaffUser → StaffUser := newPassword (s.bcrypt.hash s.salt s.input.newPassword)

/-- What the reset writes. -/
def updateData : StaffUser → StaffUser := (s.reset.data (s.bcrypt.hash s.resetSalt)).write

/-- Why the change is refused, if it is, given the accounts. -/
def changeRefused (rows : Rows StaffUser) : Option StaffError :=
  passwordRefusal s.bcrypt s.input (rows.get? s.staffId)

/-- Why the reset is refused, if it is, given a world to find the target in and one to
count the admins in. -/
def updateRefused (w w' : World) : Option StaffError :=
  updateRefusal s.bcrypt s.staffId s.actorId s.reset s.resetSalt (w.staffOf s.staffId s.venueId)
    (w'.otherActiveAdmins s.venueId s.staffId)

/-! ## One call alone -/

theorem change_alone (w : World) :
    Alone (fun w' x => match s.changeRefused w.staffUsers with
      | some e => w' = w ∧ x = .ok (.changed (.error e))
      | none => w'.staffUsers = w.staffUsers.updateAt s.staffId s.changeData
          ∧ x = .ok (.changed (.ok ()))) (s.change.prog s.bcrypt) w := by
  refine Prog.alone_map ?_
  unfold changeOwnPassword changeRefused
  refine alone_query ?_
  cases hfound : w.staffUsers.get? s.staffId with
  | none => exact ⟨rfl, rfl⟩
  | some user =>
    rw [passwordRefusal]
    dsimp only
    by_cases hwrong : (!s.bcrypt.compare s.input.currentPassword user.passwordHash) = true
    · rw [if_pos hwrong, if_pos hwrong]
      exact ⟨rfl, rfl⟩
    rw [if_neg hwrong, if_neg hwrong]
    refine alone_write (fun w' x hx => ?_)
    replace hx : w.staffUserUpdate s.staffId _ = (w', x) := hx
    rw [World.staffUserUpdate, hfound] at hx
    cases hx
    exact ⟨rfl, rfl⟩

theorem update_alone (w : World) :
    Alone (fun w' x => match s.updateRefused w w with
      | some e => w' = w ∧ x = .ok (.updated (.error e))
      | none => w'.staffUsers = w.staffUsers.updateAt s.staffId s.updateData
          ∧ x = .ok (.updated (.ok ()))) (s.update.prog s.bcrypt) w := by
  refine Prog.alone_map ?_
  unfold updateStaff updateRefused
  refine alone_query ?_
  cases hfound : w.staffOf s.staffId s.venueId with
  | none => exact ⟨rfl, rfl⟩
  | some target =>
    rw [updateRefusal]
    dsimp only
    by_cases hself : s.staffId = s.actorId ∧ s.reset.active = some false
    · rw [if_pos hself, if_pos hself]
      exact ⟨rfl, rfl⟩
    rw [if_neg hself, if_neg hself]
    by_cases hdemote : s.staffId = s.actorId ∧ s.reset.role = some .desk
    · rw [if_pos hdemote, if_pos hdemote]
      exact ⟨rfl, rfl⟩
    rw [if_neg hdemote, if_neg hdemote]
    have hwrites : ∀ last : Bool,
        Alone (fun w' x => match (if last = true then some StaffError.last_admin
            else if (s.reset.data (s.bcrypt.hash s.resetSalt)).isEmpty = true then
              some .nothing_to_do else none) with
          | some e => w' = w ∧ x.map StaffAnswer.updated = .ok (.updated (.error e))
          | none => w'.staffUsers = w.staffUsers.updateAt s.staffId s.updateData
              ∧ x.map StaffAnswer.updated = .ok (.updated (.ok ())))
          (if last = true then Prog.ret (.error .last_admin)
            else if (s.reset.data (s.bcrypt.hash s.resetSalt)).isEmpty = true
            then Prog.ret (.error .nothing_to_do)
            else (perform (.staffUserUpdate s.staffId s.updateData)).bind
              (fun _ => (invalidateStaffCache s.staffId).bind (fun _ => .ret (.ok ())))) w := by
      intro last
      by_cases hlast : last = true
      · rw [if_pos hlast, if_pos hlast]
        exact ⟨rfl, rfl⟩
      rw [if_neg hlast, if_neg hlast]
      by_cases hempty : (s.reset.data (s.bcrypt.hash s.resetSalt)).isEmpty = true
      · rw [if_pos hempty, if_pos hempty]
        exact ⟨rfl, rfl⟩
      rw [if_neg hempty, if_neg hempty]
      refine alone_write (fun w' x hx => ?_)
      replace hx : w.staffUserUpdate s.staffId _ = (w', x) := hx
      rw [World.staffUserUpdate, (staffOf_some hfound).1] at hx
      cases hx
      exact ⟨rfl, rfl⟩
    by_cases hloses : losesAdmin target s.reset = true
    · rw [if_pos hloses, hloses, Bool.true_and]
      exact hwrites _
    · rw [Bool.not_eq_true] at hloses
      rw [hloses, if_neg Bool.false_ne_true, Bool.false_and]
      exact hwrites false

/-! ## What the change leaves of the accounts -/

/-- The accounts once the change alone was written. -/
def rowsChanged : Rows StaffUser := s.first.staffUsers.updateAt s.staffId s.changeData

/-- The accounts once the reset alone was written. -/
def rowsUpdated : Rows StaffUser := s.first.staffUsers.updateAt s.staffId s.updateData

/-- A world whose accounts the reset has not touched. -/
def BeforeUpdate (w : World) : Prop :=
  w.staffUsers = s.first.staffUsers ∨ w.staffUsers = s.rowsChanged

variable {s} {w w' : World}

theorem BeforeUpdate.staffOf (h : s.BeforeUpdate w) :
    w.staffOf s.staffId s.venueId = s.first.staffOf s.staffId s.venueId
      ∨ w.staffOf s.staffId s.venueId = (s.first.staffOf s.staffId s.venueId).map s.changeData := by
  rcases h with h | h
  · left
    rw [World.staffOf, h]
    rfl
  · right
    rw [World.staffOf, h, rowsChanged, Rows.get?_updateAt, World.staffOf]
    cases s.first.staffUsers.get? s.staffId with
    | none => rfl
    | some u =>
      rw [Option.map_some, if_pos rfl, Option.filter_some, Option.filter_some]
      show (if (u.venueId == s.venueId) = true then _ else _) = _
      split
      · rfl
      · rfl

theorem BeforeUpdate.otherActiveAdmins (h : s.BeforeUpdate w) :
    w.otherActiveAdmins s.venueId s.staffId = s.first.otherActiveAdmins s.venueId s.staffId := by
  rcases h with h | h
  · rw [World.otherActiveAdmins, h]
    rfl
  · rw [World.otherActiveAdmins, h, rowsChanged]
    exact Rows.count_updateAt (fun _ _ => rfl)

/-- **A change of password changes nothing the reset reads.** -/
theorem updateRefused_eq (h : s.BeforeUpdate w) (h' : s.BeforeUpdate w') :
    s.updateRefused w w' = s.updateRefused s.first s.first := by
  rw [updateRefused, updateRefused, h'.otherActiveAdmins]
  rcases h.staffOf with hof | hof
  · rw [hof]
  · rw [hof]
    cases s.first.staffOf s.staffId s.venueId with
    | none => rfl
    | some u => rfl

/-! ## Where the two calls are -/

/-- **The order of the writes so far**, and what each write was permitted by. -/
inductive Place (s : PasswordRace) (w : World) (pc pu : List (Event api World)) : Prop where
  | neither (hc : Unwritten pc) (hu : Unwritten pu) (hw : w.staffUsers = s.first.staffUsers)
  | updated (hc : Unwritten pc) (hu : ¬ Unwritten pu) (hw : w.staffUsers = s.rowsUpdated)
  | changed (hc : ¬ Unwritten pc) (hu : Unwritten pu) (hw : w.staffUsers = s.rowsChanged)
      (hpermitted : s.changeRefused s.first.staffUsers = none)
  | updatedChanged (hc : ¬ Unwritten pc) (hu : ¬ Unwritten pu)
      (hw : w.staffUsers = s.rowsUpdated.updateAt s.staffId s.changeData)
      (hpermitted : s.changeRefused s.rowsUpdated = none)
  | changedUpdated (hc : ¬ Unwritten pc) (hu : ¬ Unwritten pu)
      (hw : w.staffUsers = s.rowsChanged.updateAt s.staffId s.updateData)
      (hpermitted : s.changeRefused s.first.staffUsers = none)

/-- **Where the two calls are**: the order of their writes, and what each has read. -/
structure Phase (s : PasswordRace) (w : World) (pc pu : List (Event api World)) : Prop where
  place : Place s w pc pu
  permitted : ¬ Unwritten pu → s.updateRefused s.first s.first = none
  readsChange : Unwritten pc → ∀ e ∈ pc, e.before.staffUsers = s.first.staffUsers
    ∨ (¬ Unwritten pu ∧ e.before.staffUsers = s.rowsUpdated)
  readsUpdate : Unwritten pu → ∀ e ∈ pu, s.BeforeUpdate e.before

variable {pc pc' pu pu' : List (Event api World)}

theorem Place.congr (h : Place s w pc pu) (hw : w'.staffUsers = w.staffUsers)
    (hc : Unwritten pc' ↔ Unwritten pc) (hu : Unwritten pu' ↔ Unwritten pu) :
    Place s w' pc' pu' := by
  cases h with
  | neither hc' hu' h => exact .neither (hc.mpr hc') (hu.mpr hu') (hw.trans h)
  | updated hc' hu' h => exact .updated (hc.mpr hc') (hu' ∘ hu.mp) (hw.trans h)
  | changed hc' hu' h hp => exact .changed (hc' ∘ hc.mp) (hu.mpr hu') (hw.trans h) hp
  | updatedChanged hc' hu' h hp =>
    exact .updatedChanged (hc' ∘ hc.mp) (hu' ∘ hu.mp) (hw.trans h) hp
  | changedUpdated hc' hu' h hp =>
    exact .changedUpdated (hc' ∘ hc.mp) (hu' ∘ hu.mp) (hw.trans h) hp

/-- Before the change has written. -/
theorem Place.before_change (h : Place s w pc pu) (hc : Unwritten pc) :
    (Unwritten pu ∧ w.staffUsers = s.first.staffUsers)
      ∨ (¬ Unwritten pu ∧ w.staffUsers = s.rowsUpdated) := by
  cases h with
  | neither _ hu hw => exact .inl ⟨hu, hw⟩
  | updated _ hu hw => exact .inr ⟨hu, hw⟩
  | changed hnot => exact absurd hc hnot
  | updatedChanged hnot => exact absurd hc hnot
  | changedUpdated hnot => exact absurd hc hnot

/-- Before the reset has written. -/
theorem Place.before_update (h : Place s w pc pu) (hu : Unwritten pu) :
    (Unwritten pc ∧ w.staffUsers = s.first.staffUsers)
      ∨ (¬ Unwritten pc ∧ w.staffUsers = s.rowsChanged
        ∧ s.changeRefused s.first.staffUsers = none) := by
  cases h with
  | neither hc _ hw => exact .inl ⟨hc, hw⟩
  | changed hc _ hw hp => exact .inr ⟨hc, hw, hp⟩
  | updated _ hnot => exact absurd hu hnot
  | updatedChanged _ hnot => exact absurd hu hnot
  | changedUpdated _ hnot => exact absurd hu hnot

/-- After both have written. -/
theorem Place.after_both (h : Place s w pc pu) (hc : ¬ Unwritten pc) (hu : ¬ Unwritten pu) :
    (w.staffUsers = s.rowsUpdated.updateAt s.staffId s.changeData
        ∧ s.changeRefused s.rowsUpdated = none)
      ∨ (w.staffUsers = s.rowsChanged.updateAt s.staffId s.updateData
        ∧ s.changeRefused s.first.staffUsers = none) := by
  cases h with
  | neither hnot => exact absurd hnot hc
  | updated hnot => exact absurd hnot hc
  | changed _ hnot => exact absurd hnot hu
  | updatedChanged _ _ hw hp => exact .inl ⟨hw, hp⟩
  | changedUpdated _ _ hw hp => exact .inr ⟨hw, hp⟩

theorem unwritten_cons {e : Event api World} {past : List (Event api World)} :
    Unwritten (e :: past) ↔ e.op.sparesStaff = true ∧ Unwritten past :=
  List.forall_mem_cons

/-- A call that spares the accounts. -/
theorem StaffStep.spares {r : StaffRequest} {v : View api World} {op : Call}
    (h : StaffStep s.bcrypt r v op w w') (hr : ∀ venueId input salt, r ≠ .create venueId input salt) :
    (op.sparesStaff = true ∧ w'.staffUsers = w.staffUsers)
      ∨ ∃ id data, r.write? s.bcrypt = some (id, data) ∧ op = .staffUserUpdate id data
        ∧ Unwritten v.past ∧ Permitted s.bcrypt r v.past
        ∧ w'.staffUsers = w.staffUsers.updateAt id data := by
  cases h with
  | quiet hop hstaff => exact .inl ⟨hop, hstaff⟩
  | created data hop hcreate =>
    obtain ⟨venueId, input, salt, rfl⟩ := hcreate
    exact absurd rfl (hr venueId input salt)
  | written id data hop hwrite hpast hpermitted hstaff =>
    exact .inr ⟨id, data, hwrite, hop, hpast, hpermitted, hstaff⟩
  | forgot id hop hstaff => exact .inl ⟨by rw [hop]; rfl, hstaff⟩
  | remembered id u hop hread hstaff => exact .inl ⟨by rw [hop]; rfl, hstaff⟩

/-- **A call of the change.** -/
theorem Phase.change_step (h : Phase s w pc pu) {v : View api World} {op : Call}
    (hv : v.past = pc) (hstep : StaffStep s.bcrypt s.change v op w w')
    (hcurrent : stillCurrent s.bcrypt s.change op w = true) :
    Phase s w' (⟨op, w, w'⟩ :: pc) pu := by
  subst hv
  rcases StaffStep.spares hstep (fun _ _ _ h => by cases h) with
    ⟨hop, hstaff⟩ | ⟨id, data, hwrite, hop, hpast, _, hstaff⟩
  · -- nothing was written, but something was read
    have hiff : Unwritten (⟨op, w, w'⟩ :: v.past) ↔ Unwritten v.past := by
      rw [unwritten_cons]
      exact and_iff_right hop
    refine ⟨h.place.congr hstaff hiff Iff.rfl, h.permitted, fun hc e he => ?_, h.readsUpdate⟩
    rw [hiff] at hc
    rcases List.mem_cons.mp he with rfl | he
    · exact (h.place.before_change hc).imp_left And.right
    · exact h.readsChange hc e he
  · cases hwrite
    subst hop
    -- the current password is still current, so the change is not refused here either
    have hpermitted : s.changeRefused w.staffUsers = none := by
      obtain ⟨hash, hhash, hcompare⟩ := (Option.any_eq_true _ _).mp hcurrent
      obtain ⟨u, hu, rfl⟩ := Option.map_eq_some_iff.mp hhash
      rw [changeRefused, hu, passwordRefusal, hcompare]
      rfl
    have hnot : ¬ Unwritten (⟨.staffUserUpdate s.staffId s.changeData, w, w'⟩ :: v.past) :=
      fun hall => Bool.false_ne_true (hall _ List.mem_cons_self)
    refine ⟨?_, h.permitted, fun hc => absurd hc hnot, h.readsUpdate⟩
    rcases h.place.before_change hpast with ⟨hu, hw⟩ | ⟨hu, hw⟩
    · rw [hw] at hstaff hpermitted
      exact .changed hnot hu hstaff hpermitted
    · rw [hw] at hstaff hpermitted
      exact .updatedChanged hnot hu hstaff hpermitted

/-- **A call of the reset.** -/
theorem Phase.update_step (h : Phase s w pc pu) {v : View api World} {op : Call}
    (hv : v.past = pu) (hstep : StaffStep s.bcrypt s.update v op w w') :
    Phase s w' pc (⟨op, w, w'⟩ :: pu) := by
  subst hv
  rcases StaffStep.spares hstep (fun _ _ _ h => by cases h) with
    ⟨hop, hstaff⟩ | ⟨id, data, hwrite, hop, hpast, hpermitted, hstaff⟩
  · have hiff : Unwritten (⟨op, w, w'⟩ :: v.past) ↔ Unwritten v.past := by
      rw [unwritten_cons]
      exact and_iff_right hop
    refine ⟨h.place.congr hstaff Iff.rfl hiff, fun hu => h.permitted (hu ∘ hiff.mpr), ?_, ?_⟩
    · intro hc e he
      exact (h.readsChange hc e he).imp_right (fun ⟨hu, hw⟩ => ⟨hu ∘ hiff.mp, hw⟩)
    · intro hu e he
      rw [hiff] at hu
      rcases List.mem_cons.mp he with rfl | he
      · exact (h.place.before_update hu).imp And.right (fun hw => hw.2.1)
      · exact h.readsUpdate hu e he
  · cases hwrite
    subst hop
    have hallowed : s.updateRefused s.first s.first = none := by
      obtain ⟨e₁, he₁, e₂, he₂, hnone⟩ := hpermitted
      rw [← updateRefused_eq (h.readsUpdate hpast e₁ he₁) (h.readsUpdate hpast e₂ he₂)]
      exact hnone
    have hnot : ¬ Unwritten (⟨.staffUserUpdate s.staffId s.updateData, w, w'⟩ :: v.past) :=
      fun hall => Bool.false_ne_true (hall _ List.mem_cons_self)
    refine ⟨?_, fun _ => hallowed, fun hc e he => ?_, fun hu => absurd hu hnot⟩
    · rcases h.place.before_update hpast with ⟨hc, hw⟩ | ⟨hc, hw, hp⟩
      · rw [hw] at hstaff
        exact .updated hc hnot hstaff
      · rw [hw] at hstaff
        exact .changedUpdated hc hnot hstaff hp
    · exact (h.readsChange hc e he).imp_right (fun ⟨_, hw⟩ => ⟨hnot, hw⟩)

/-! ## Every interleaving -/

theorem Phase.of_eq (h : Phase s w pc pu) (hw : w'.staffUsers = w.staffUsers) : Phase s w' pc pu :=
  ⟨h.place.congr hw Iff.rfl Iff.rfl, h.permitted, h.readsChange, h.readsUpdate⟩

/-- The two calls, and where they are. -/
def Underway (s : PasswordRace) (p : (staffServer s.bcrypt false).Pool) : Prop :=
  ∃ tc tu, p.threads = [tc, tu] ∧ tc.req = s.change ∧ tu.req = s.update
    ∧ Phase s p.world tc.view.past tu.view.past

theorem underway_pool (s : PasswordRace) : Underway s s.pool := by
  have hnil : Unwritten [] := fun _ he => absurd he List.not_mem_nil
  exact ⟨_, _, rfl, rfl, rfl, .neither hnil hnil rfl, fun h => absurd hnil h,
    fun _ _ he => absurd he List.not_mem_nil, fun _ _ he => absurd he List.not_mem_nil⟩

theorem Underway.act {p : (staffServer s.bcrypt false).Pool}
    (hok : (passwordProtocol s.bcrypt).PoolOk (staffPost s.bcrypt) s.first p) (h : Underway s p)
    {a : (staffServer s.bcrypt false).Action} (ha : (passwordProtocol s.bcrypt).cond p a = true) :
    Underway s (p.act a) := by
  obtain ⟨tc, tu, hthreads, hc, hu, hphase⟩ := h
  rcases Sys.Pool.act_closed (p := p) (a := a) (fun _ => rfl) (fun op => by cases op <;> rfl)
      (fun e => by cases e <;> rfl) with ⟨hsame, hworld⟩ | ⟨i, c, t, op, k, rfl, ht, hk, hact⟩
  · refine ⟨tc, tu, hsame.trans hthreads, hc, hu, hphase.of_eq ?_⟩
    rcases hworld with hworld | ⟨e, hworld⟩
    · rw [hworld]
    · rw [hworld]
      cases e with
      | tick ms => rfl
      | crash => rfl
  · have hg := (passwordProtocol s.bcrypt).cond_step ht hk ha
    have hstep : StaffStep s.bcrypt t.req t.view op p.world _ := (hok.answer ht hk hg).1.here
    have hguard := ((staffProtocol s.bcrypt false).under_guard.mp hg).2
    rw [hact, hthreads]
    rw [hthreads] at ht
    match i with
    | 0 =>
      cases ht
      rw [hc] at hstep hguard
      exact ⟨_, tu, rfl, hc, hu, hphase.change_step rfl hstep hguard⟩
    | 1 =>
      cases ht
      rw [hu] at hstep
      exact ⟨tc, _, rfl, hc, hu, hphase.update_step rfl hstep⟩
    | _ + 2 => cases ht

/-- **A run of the two calls, and what it came to.** -/
structure Ran (s : PasswordRace) (acts : List (staffServer s.bcrypt false).Action)
    (x y : Except DbError StaffAnswer) : Prop where
  change : (s.pool.run acts).outcome 0 = some x
  update : (s.pool.run acts).outcome 1 = some y

/-- **Both answers and the hash that is left are those of the two calls one after the
other**: the change first, or the reset first. -/
def Linearizable (s : PasswordRace) (acts : List (staffServer s.bcrypt false).Action)
    (x y : Except DbError StaffAnswer) : Prop :=
  (x = (s.change.alone s.bcrypt s.first).2
      ∧ y = (s.update.alone s.bcrypt (s.change.alone s.bcrypt s.first).1).2
      ∧ (s.pool.run acts).world.passwordHash s.staffId
        = (s.update.alone s.bcrypt (s.change.alone s.bcrypt s.first).1).1.passwordHash s.staffId)
    ∨ (y = (s.update.alone s.bcrypt s.first).2
      ∧ x = (s.change.alone s.bcrypt (s.update.alone s.bcrypt s.first).1).2
      ∧ (s.pool.run acts).world.passwordHash s.staffId
        = (s.change.alone s.bcrypt (s.update.alone s.bcrypt s.first).1).1.passwordHash s.staffId)

/-! ### The calls alone -/

theorem change_alone_refused {e : StaffError} (h : s.changeRefused w.staffUsers = some e) :
    (s.change.alone s.bcrypt w).1 = w
      ∧ (s.change.alone s.bcrypt w).2 = .ok (.changed (.error e)) := by
  have halone := s.change_alone w
  rw [h] at halone
  exact halone

theorem change_alone_ok (h : s.changeRefused w.staffUsers = none) :
    (s.change.alone s.bcrypt w).1.staffUsers = w.staffUsers.updateAt s.staffId s.changeData
      ∧ (s.change.alone s.bcrypt w).2 = .ok (.changed (.ok ())) := by
  have halone := s.change_alone w
  rw [h] at halone
  exact halone

theorem update_alone_refused {e : StaffError} (h : s.updateRefused w w = some e) :
    (s.update.alone s.bcrypt w).1 = w
      ∧ (s.update.alone s.bcrypt w).2 = .ok (.updated (.error e)) := by
  have halone := s.update_alone w
  rw [h] at halone
  exact halone

theorem update_alone_ok (h : s.updateRefused w w = none) :
    (s.update.alone s.bcrypt w).1.staffUsers = w.staffUsers.updateAt s.staffId s.updateData
      ∧ (s.update.alone s.bcrypt w).2 = .ok (.updated (.ok ())) := by
  have halone := s.update_alone w
  rw [h] at halone
  exact halone

theorem passwordHash_congr (h : w.staffUsers = w'.staffUsers) :
    w.passwordHash s.staffId = w'.passwordHash s.staffId := by
  rw [World.passwordHash, h]
  rfl

/-- What the answer to the change says. -/
theorem change_answer {v : View api World} {x : Except DbError StaffAnswer}
    (h : staffPost s.bcrypt s.change v x) :
    (∃ e, x = .ok (.changed (.error e)) ∧ Unwritten v.past
        ∧ ∃ e₁ ∈ v.past, s.changeRefused e₁.before.staffUsers = some e)
      ∨ (x = .ok (.changed (.ok ())) ∧ ¬ Unwritten v.past) := by
  match x, h with
  | .ok (.changed (.error e)), h => exact .inl ⟨e, rfl, h⟩
  | .ok (.changed (.ok ())), h => exact .inr ⟨rfl, WroteAndForgot.not_unwritten h⟩

/-- What the answer to the reset says. -/
theorem update_answer {v : View api World} {y : Except DbError StaffAnswer}
    (h : staffPost s.bcrypt s.update v y) :
    (∃ e, y = .ok (.updated (.error e)) ∧ Unwritten v.past
        ∧ ∃ e₁ ∈ v.past, ∃ e₂ ∈ v.past, s.updateRefused e₁.before e₂.before = some e)
      ∨ (y = .ok (.updated (.ok ())) ∧ ¬ Unwritten v.past) := by
  match y, h with
  | .ok (.updated (.error e)), h => exact .inl ⟨e, rfl, h⟩
  | .ok (.updated (.ok ())), h => exact .inr ⟨rfl, WroteAndForgot.not_unwritten h⟩

/-- **What the reads allowed is what the calls alone are allowed**, in the order of their
writes. -/
theorem Phase.linearizable {acts : List (staffServer s.bcrypt false).Action}
    {x y : Except DbError StaffAnswer} {vc vu : View api World}
    (h : Phase s (s.pool.run acts).world vc.past vu.past) (hx : staffPost s.bcrypt s.change vc x)
    (hy : staffPost s.bcrypt s.update vu y) : Linearizable s acts x y := by
  rcases change_answer hx with ⟨e, rfl, hc, e₁, he₁, hrefused⟩ | ⟨rfl, hc⟩
  · rcases update_answer hy with ⟨e', rfl, hu, f₁, hf₁, f₂, hf₂, hrefused'⟩ | ⟨rfl, hu⟩
    · -- neither has written
      rw [updateRefused_eq (h.readsUpdate hu f₁ hf₁) (h.readsUpdate hu f₂ hf₂)] at hrefused'
      have hread := (h.readsChange hc e₁ he₁).resolve_right (fun hn => hn.1 hu)
      rw [hread] at hrefused
      obtain ⟨hw, hxa⟩ := change_alone_refused hrefused
      obtain ⟨hw', hya⟩ := update_alone_refused hrefused'
      refine .inl ⟨hxa.symm, by rw [hw, hya], ?_⟩
      rw [hw, hw']
      exact passwordHash_congr ((h.place.before_change hc).resolve_right (fun hn => hn.1 hu)).2
    · -- the reset has; the change was refused before or after
      obtain ⟨hrows, hya⟩ := update_alone_ok (h.permitted hu)
      have hlast : (s.pool.run acts).world.staffUsers = s.rowsUpdated :=
        ((h.place.before_change hc).resolve_left (fun hn => hu hn.1)).2
      rcases h.readsChange hc e₁ he₁ with hread | ⟨_, hread⟩
      · rw [hread] at hrefused
        obtain ⟨hw, hxa⟩ := change_alone_refused hrefused
        refine .inl ⟨hxa.symm, by rw [hw, hya], ?_⟩
        rw [hw]
        exact passwordHash_congr (hlast.trans hrows.symm)
      · rw [hread, rowsUpdated, ← hrows] at hrefused
        obtain ⟨hw, hxa⟩ := change_alone_refused hrefused
        refine .inr ⟨hya.symm, hxa.symm, ?_⟩
        rw [hw]
        exact passwordHash_congr (hlast.trans hrows.symm)
  · rcases update_answer hy with ⟨e', rfl, hu, f₁, hf₁, f₂, hf₂, hrefused'⟩ | ⟨rfl, hu⟩
    · -- the change has; the reset was refused, before or after
      rw [updateRefused_eq (h.readsUpdate hu f₁ hf₁) (h.readsUpdate hu f₂ hf₂)] at hrefused'
      obtain ⟨_, hlast, hpermitted⟩ :=
        (h.place.before_update hu).resolve_left (fun hn => hc hn.1)
      obtain ⟨hrows, hxa⟩ := change_alone_ok hpermitted
      rw [← updateRefused_eq (.inr hrows) (.inr hrows)] at hrefused'
      obtain ⟨hw', hya⟩ := update_alone_refused hrefused'
      refine .inl ⟨hxa.symm, hya.symm, ?_⟩
      rw [hw']
      exact passwordHash_congr (hlast.trans hrows.symm)
    · -- both have written, and the order of the writes is the order
      have hallowed := h.permitted hu
      rcases h.place.after_both hc hu with ⟨hlast, hpermitted⟩ | ⟨hlast, hpermitted⟩
      · obtain ⟨hrows, hya⟩ := update_alone_ok hallowed
        rw [rowsUpdated, ← hrows] at hpermitted
        obtain ⟨hrows', hxa⟩ := change_alone_ok hpermitted
        refine .inr ⟨hya.symm, hxa.symm, passwordHash_congr ?_⟩
        rw [hlast, hrows', hrows]
        rfl
      · obtain ⟨hrows, hxa⟩ := change_alone_ok hpermitted
        rw [← updateRefused_eq (.inr hrows) (.inr hrows)] at hallowed
        obtain ⟨hrows', hya⟩ := update_alone_ok hallowed
        refine .inl ⟨hxa.symm, hya.symm, passwordHash_congr ?_⟩
        rw [hlast, hrows', hrows]
        rfl

/-- **The old password has no say after a reset.** -/
theorem Linearizable.reset_wins {acts : List (staffServer s.bcrypt false).Action}
    (h : Linearizable s acts (.ok (.changed (.ok ()))) (.ok (.updated (.ok ()))))
    (hold : s.bcrypt.compare s.input.currentPassword s.resetHash = false) :
    (s.pool.run acts).world.passwordHash s.staffId = some s.resetHash := by
  -- a reset that answered ok has found its target and set its hash
  have hreset : ∀ w, (s.update.alone s.bcrypt w).2 = .ok (.updated (.ok ())) →
      (s.update.alone s.bcrypt w).1.passwordHash s.staffId = some s.resetHash := by
    intro w hok
    cases hrefused : s.updateRefused w w with
    | some e =>
      rw [(update_alone_refused hrefused).2] at hok
      cases hok
    | none =>
      obtain ⟨hrows, _⟩ := update_alone_ok hrefused
      cases hfound : w.staffOf s.staffId s.venueId with
      | none =>
        rw [updateRefused, hfound] at hrefused
        cases hrefused
      | some u =>
        rw [World.passwordHash, hrows, Rows.get?_updateAt, (staffOf_some hfound).1]
        simp [updateData, StaffUpdate.data, StaffData.write, s.hasPassword, resetHash]
  rcases h with ⟨_, hy, hhash⟩ | ⟨hy, hx, _⟩
  · rw [hhash, hreset _ hy.symm]
  · -- the change alone would have been refused
    obtain ⟨u, hu, hhash⟩ := Option.map_eq_some_iff.mp (hreset _ hy.symm)
    have hrefused : s.changeRefused (s.update.alone s.bcrypt s.first).1.staffUsers
        = some .wrong_password := by
      rw [changeRefused, hu, passwordRefusal, hhash, hold]
      rfl
    rw [(change_alone_refused hrefused).2] at hx
    cases hx

end PasswordRace

/-- **Two changes of one password are linearizable**, in every interleaving in which the
current password still matches as the change is written; and then a change authorised
by a password the reset has replaced does not undo the reset. -/
theorem passwords_linear (s : PasswordRace) (acts : List (staffServer s.bcrypt false).Action)
    (h : s.pool.Meets (passwordProtocol s.bcrypt).cond acts = true)
    (x y : Except DbError StaffAnswer) (hran : s.Ran acts x y) :
    s.Linearizable acts x y
      ∧ (x = .ok (.changed (.ok ())) → y = .ok (.updated (.ok ())) →
        s.bcrypt.compare s.input.currentPassword s.resetHash = false →
        (s.pool.run acts).world.passwordHash s.staffId = some s.resetHash) := by
  have hS := (staffSound s.bcrypt false).under (fun r _ _ op w => stillCurrent s.bcrypt r op w)
  have hstart : (passwordProtocol s.bcrypt).PoolOk (staffPost s.bcrypt) s.first s.pool :=
    (Protocol.PoolOk.init trivial).spawn hS [s.change, s.update]
  obtain ⟨hok, tc, tu, hthreads, hc, hu, hphase⟩ := Sys.Pool.run_induction
    (fun p : (staffServer s.bcrypt false).Pool =>
      (passwordProtocol s.bcrypt).PoolOk (staffPost s.bcrypt) s.first p ∧ s.Underway p)
    (fun p a hp ha => ⟨hp.1.act hS ha, hp.2.act hp.1 ha⟩) ⟨hstart, s.underway_pool⟩ h
  obtain ⟨hx, hy⟩ := hran
  rw [Sys.Pool.outcome, hthreads] at hx hy
  have hpostx := hok.post (by rw [hthreads]; exact List.mem_cons_self) hx
  have hposty := hok.post (by rw [hthreads]; exact List.mem_cons_of_mem _ List.mem_cons_self) hy
  rw [hc] at hpostx
  rw [hu] at hposty
  have hlinear := hphase.linearizable hpostx hposty
  refine ⟨hlinear, ?_⟩
  rintro rfl rfl hold
  exact hlinear.reset_wins hold

/-! ## A reset in the middle -/

/-- A reset of a password. -/
def resetTo3 : StaffUpdate where
  name := none
  role := none
  active := none
  password := some (text "password3")
  signOutEverywhere := none
  zod := .plain
  nameLength := StaffUpdate.no_name _
  passwordLength p h := by
    cases h
    decide

/-- The second manager changes their password, the first resets it. -/
def resetRace : PasswordRace where
  bcrypt := openHash
  staffId := 1
  input := ⟨text "passw0rd", text "password2", .plain, by decide, by decide⟩
  salt := 3
  venueId := 0
  actorId := 0
  reset := resetTo3
  resetSalt := 4
  password := text "password3"
  hasPassword := rfl
  first := twoManagers

/-- The reset falls between the comparison and the write. -/
def resetBetween : List (staffServer resetRace.bcrypt false).Action :=
  [.step 0 plain, .step 1 plain, .step 1 plain, .step 1 plain, .step 0 plain, .step 0 plain]

/-- **The two calls are not linearizable**: both answer ok, the reset first, and the
password the change has set is left. -/
theorem passwords_linear_fails :
    ¬ ∀ (s : PasswordRace) (acts : List (staffServer s.bcrypt false).Action)
      (x y : Except DbError StaffAnswer), s.Ran acts x y → s.Linearizable acts x y := by
  intro h
  have hlinear := h resetRace resetBetween _ _ ⟨rfl, rfl⟩
  rcases hlinear with ⟨_, _, hhash⟩ | ⟨_, hx, _⟩
  · exact absurd hhash (by decide)
  · cases hx

/-- The change first, and then the reset. -/
theorem passwords_linear_in_turn :
    resetRace.Linearizable (List.replicate 3 (.step 0 plain) ++ List.replicate 3 (.step 1 plain))
        (.ok (.changed (.ok ()))) (.ok (.updated (.ok ())))
      ∧ ((.ok (.changed (.ok ())) : Except DbError StaffAnswer) = .ok (.changed (.ok ())) →
        (.ok (.updated (.ok ())) : Except DbError StaffAnswer) = .ok (.updated (.ok ())) →
        resetRace.bcrypt.compare resetRace.input.currentPassword resetRace.resetHash = false →
        (resetRace.pool.run (List.replicate 3 (.step 0 plain)
          ++ List.replicate 3 (.step 1 plain))).world.passwordHash resetRace.staffId
          = some resetRace.resetHash) :=
  passwords_linear resetRace _ (by decide) _ _ ⟨rfl, rfl⟩

end Masadan
