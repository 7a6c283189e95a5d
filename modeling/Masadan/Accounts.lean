import Masadan.StaffAuth
import Masadan.History

/-!
# What happens to an account

The requests that concern accounts are served together: managers create and change
them, staff change their own password, and every request asks who is asking. This
module says once what a call of each may do to the accounts and to what the process
remembers of them (`StaffStep`), and what each answer says of what was seen
(`staffPost`), whatever they are interleaved with (`staffSound`).

`Masadan.LastAdmin`, `Masadan.Passwords` and `Masadan.Revocation` are read off
from it.
-/

namespace Masadan

/-! ## The requests -/

inductive StaffRequest where
  | create (venueId : Id) (input : StaffCreate) (salt : ℕ)
  | update (venueId targetId actorId : Id) (input : StaffUpdate) (salt : ℕ)
  | changePassword (staffId : Id) (input : PasswordChange) (salt : ℕ)
  | getStaff (token : Option TokenClaims)

inductive StaffAnswer where
  | created (a : Except StaffError Id)
  | updated (a : Except StaffError Unit)
  | changed (a : Except StaffError Unit)
  | staff (a : Option SignedIn)

def StaffRequest.prog (bcrypt : Bcrypt) : StaffRequest → Api StaffAnswer
  | .create venueId input salt => StaffAnswer.created <$> createStaff bcrypt venueId input salt
  | .update venueId targetId actorId input salt =>
    StaffAnswer.updated <$> updateStaff bcrypt venueId targetId actorId input salt
  | .changePassword staffId input salt =>
    StaffAnswer.changed <$> changeOwnPassword bcrypt staffId input salt
  | .getStaff token => StaffAnswer.staff <$> Masadan.getStaff token

/-- The server serving these requests; `arrives` says whether more may come. -/
abbrev staffServer (bcrypt : Bcrypt) (arrives : Bool) : Sys api :=
  server (StaffRequest.prog bcrypt) (fun _ => arrives) (fun _ => []) false

/-- The account a request changes, and what it writes there. -/
def StaffRequest.write? (bcrypt : Bcrypt) : StaffRequest → Option (Id × (StaffUser → StaffUser))
  | .update _ targetId _ input salt => some (targetId, (input.data (bcrypt.hash salt)).write)
  | .changePassword staffId input salt =>
    some (staffId, newPassword (bcrypt.hash salt input.newPassword))
  | _ => none

/-- What `updateStaff` refuses: a function of the target it found and of the number of
other active admins. -/
def updateRefusal (bcrypt : Bcrypt) (targetId actorId : Id) (input : StaffUpdate) (salt : ℕ)
    (found : Option StaffUser) (others : ℕ) : Option StaffError :=
  match found with
  | none => some .not_found
  | some target =>
    if targetId = actorId ∧ input.active = some false then some .cannot_deactivate_self
    else if targetId = actorId ∧ input.role = some .desk then some .cannot_demote_self
    else if losesAdmin target input && others == 0 then some .last_admin
    else if (input.data (bcrypt.hash salt)).isEmpty then some .nothing_to_do
    else none

/-- What `changeOwnPassword` refuses. -/
def passwordRefusal (bcrypt : Bcrypt) (input : PasswordChange) (found : Option StaffUser) :
    Option StaffError :=
  match found with
  | none => some .not_found
  | some user =>
    if !bcrypt.compare input.currentPassword user.passwordHash then some .wrong_password else none

/-! ## One call -/

/-- A call that leaves the accounts alone. -/
def Call.sparesStaff : Call → Bool
  | .staffUserCreate _ | .staffUserUpdate _ _ => false
  | _ => true

/-- Nothing was written to the accounts so far. -/
def Unwritten (past : List (Event api World)) : Prop := ∀ e ∈ past, e.op.sparesStaff = true

/-- **What a request has seen before it writes**: reads that gave it no reason to
refuse. -/
def Permitted (bcrypt : Bcrypt) : StaffRequest → List (Event api World) → Prop
  | .update venueId targetId actorId input salt, past =>
    ∃ e₁ ∈ past, ∃ e₂ ∈ past, updateRefusal bcrypt targetId actorId input salt
      (e₁.before.staffOf targetId venueId) (e₂.before.otherActiveAdmins venueId targetId) = none
  | .changePassword staffId input _, past =>
    ∃ e ∈ past, passwordRefusal bcrypt input (e.before.staffUsers.get? staffId) = none
  | _, _ => True

/-- **What one call of a request may do** to the accounts and to what is remembered of
them. -/
inductive StaffStep (bcrypt : Bcrypt) (r : StaffRequest) (v : View api World) (op : Call)
    (w w' : World) : Prop where
  /-- Nothing. -/
  | quiet (hop : op.sparesStaff = true) (hstaff : w'.staffUsers = w.staffUsers)
      (hcache : w'.accountCache = w.accountCache)
  /-- An account is created, or its address was taken. -/
  | created (data : NewStaffUser) (hop : op = .staffUserCreate data)
      (hr : ∃ venueId input salt, r = .create venueId input salt)
      (hstaff : w'.staffUsers = w.staffUsers ∨ w'.staffUsers = w.staffUsers.create
        { venueId := data.venueId, email := data.email, name := data.name,
          passwordHash := data.passwordHash, role := data.role, active := true,
          tokenVersion := 0 })
      (hcache : w'.accountCache = w.accountCache)
  /-- An account is changed, once, by a request that has looked. -/
  | written (id : Id) (data : StaffUser → StaffUser) (hop : op = .staffUserUpdate id data)
      (hr : r.write? bcrypt = some (id, data)) (hpast : Unwritten v.past)
      (hpermitted : Permitted bcrypt r v.past)
      (hstaff : w'.staffUsers = w.staffUsers.updateAt id data)
      (hcache : w'.accountCache = w.accountCache)
  /-- An account is forgotten. -/
  | forgot (id : Id) (hop : op = .accountCacheDelete id) (hstaff : w'.staffUsers = w.staffUsers)
      (hcache : w'.accountCache = fun k => if k = id then none else w.accountCache k)
  /-- An account is remembered, as it was read a call ago. -/
  | remembered (id : Id) (u : StaffUser) (hop : op = .accountCacheSet id u.account.checked)
      (hread : v.since.staffUsers.get? id = some u) (hstaff : w'.staffUsers = w.staffUsers)
      (hcache : w'.accountCache
        = fun k => if k = id then some (u.account.checked w.now) else w.accountCache k)

/-- No account goes away or changes its venue, and versions count up. -/
def AccountsKept (w w' : World) : Prop :=
  ∀ id u, w.staffUsers.get? id = some u → ∃ u', w'.staffUsers.get? id = some u'
    ∧ u'.venueId = u.venueId ∧ u.tokenVersion ≤ u'.tokenVersion

theorem AccountsKept.of_eq {w w' : World} (h : w'.staffUsers = w.staffUsers) : AccountsKept w w' :=
  fun id u hu => ⟨u, by rw [h, hu], rfl, le_refl _⟩

theorem AccountsKept.trans {w w' w'' : World} (h : AccountsKept w w') (h' : AccountsKept w' w'') :
    AccountsKept w w'' := by
  intro id u hu
  obtain ⟨u₁, hu₁, hvenue₁, hver₁⟩ := h id u hu
  obtain ⟨u₂, hu₂, hvenue₂, hver₂⟩ := h' id u₁ hu₁
  exact ⟨u₂, hu₂, hvenue₂.trans hvenue₁, hver₁.trans hver₂⟩

/-- What a request writes leaves the venue, and never counts the version down. -/
theorem StaffRequest.write?_keeps {bcrypt : Bcrypt} {r : StaffRequest} {id : Id}
    {data : StaffUser → StaffUser} (h : r.write? bcrypt = some (id, data)) (u : StaffUser) :
    (data u).venueId = u.venueId ∧ u.tokenVersion ≤ (data u).tokenVersion := by
  cases r with
  | update venueId targetId actorId input salt =>
    cases h
    refine ⟨rfl, ?_⟩
    show u.tokenVersion ≤ if _ then u.tokenVersion + 1 else u.tokenVersion
    split
    · exact Int.le_add_one (le_refl _)
    · exact le_refl _
  | changePassword staffId input salt =>
    cases h
    exact ⟨rfl, Int.le_add_one (le_refl _)⟩
  | create venueId input salt => cases h
  | getStaff token => cases h

theorem StaffStep.kept {bcrypt : Bcrypt} {r : StaffRequest} {v : View api World} {op : Call}
    {w w' : World} (h : StaffStep bcrypt r v op w w') : AccountsKept w w' := by
  cases h with
  | quiet hop hstaff => exact .of_eq hstaff
  | created data hop hr hstaff =>
    rcases hstaff with hstaff | hstaff
    · exact .of_eq hstaff
    · intro id u hu
      exact ⟨u, by rw [hstaff, Rows.get?_create_of_some hu], rfl, le_refl _⟩
  | written id data hop hr hpast hpermitted hstaff =>
    intro k u hu
    rw [hstaff, Rows.get?_updateAt, hu]
    obtain ⟨hvenue, hver⟩ := StaffRequest.write?_keeps hr u
    by_cases hk : k = id
    · exact ⟨data u, by simp [hk], hvenue, hver⟩
    · exact ⟨u, by simp [hk], rfl, le_refl _⟩
  | forgot id hop hstaff => exact .of_eq hstaff
  | remembered id u hop hread hstaff => exact .of_eq hstaff

/-- What the requests promise. -/
abbrev staffProtocol (bcrypt : Bcrypt) (arrives : Bool) : Protocol (staffServer bcrypt arrives) where
  Inv _ := True
  Evolves := AccountsKept
  refl _ := .of_eq rfl
  Local r v e := StaffStep bcrypt r v e.op e.before e.after

variable {bcrypt : Bcrypt} {arrives : Bool} {r : StaffRequest} {v : View api World} {w w' : World}

theorem rely_accounts (h : (staffProtocol bcrypt arrives).Rely w w') : AccountsKept w w' :=
  h.evolves AccountsKept.trans

theorem takes_staff {op : Call} (h : StaffStep bcrypt r v op w w') :
    (staffProtocol bcrypt arrives).Takes r v ⟨op, w, w'⟩ := ⟨trivial, h.kept, h⟩

/-- A read, then the rest. -/
theorem ok_look {α β : Type} (q : World → α) {f : α → Api β}
    {Q : View api World → Except DbError β → Prop}
    (h : ∀ w, (staffProtocol bcrypt arrives).Rely v.since w →
      (staffProtocol bcrypt arrives).Ok r Q (v.push ⟨.query q, w, w⟩) (f (q w))) :
    (staffProtocol bcrypt arrives).Ok r Q v ((query q).bind f) :=
  Protocol.ok_perform_bind (fun w _ _ hv _ => ⟨takes_staff (.quiet rfl rfl rfl), h w hv⟩)

/-- The update of an account that is there, by a request that has looked, and then the
cached state dropped. -/
theorem ok_writeStaff {β : Type} {id : Id} {data : StaffUser → StaffUser} {a : β}
    {Q : View api World → Except DbError β → Prop} (hr : r.write? bcrypt = some (id, data))
    (hpast : Unwritten v.past) (hpermitted : Permitted bcrypt r v.past)
    (hrow : ∃ u, v.since.staffUsers.get? id = some u)
    (hQ : ∀ w w₁ w₂ w₃, w₁.staffUsers = w.staffUsers.updateAt id data →
      Q ((v.push ⟨.staffUserUpdate id data, w, w₁⟩).push ⟨.accountCacheDelete id, w₂, w₃⟩) (.ok a)) :
    (staffProtocol bcrypt arrives).Ok r Q v
      ((perform (.staffUserUpdate id data)).bind
        (fun _ => (invalidateStaffCache id).bind (fun _ => .ret a))) := by
  refine ok_write (fun w c w' x _ hv _ hx => ?_)
  -- the account is still there
  obtain ⟨u, hu⟩ := hrow
  obtain ⟨u₁, hu₁, _⟩ := rely_accounts hv id u hu
  replace hx : w.staffUserUpdate id data = (w', x) := hx
  unfold World.staffUserUpdate at hx
  rw [hu₁] at hx
  cases hx
  refine ⟨takes_staff (.written id data rfl hr hpast hpermitted rfl rfl), ?_⟩
  refine ok_write (fun w₂ c₂ w₃ x₂ _ _ _ hx₂ => ?_)
  cases hx₂
  exact ⟨takes_staff (.forgot id rfl rfl rfl), hQ _ _ _ _ rfl⟩

/-! ## Handlers -/

/-- An update was written, and after it the cached state was dropped. -/
def WroteAndForgot (id : Id) (v : View api World) : Prop :=
  ∃ e e' rest, v.past = e' :: e :: rest ∧ e.op.sparesStaff = false
    ∧ e'.op = .accountCacheDelete id

theorem WroteAndForgot.not_unwritten {id : Id} {v : View api World} (h : WroteAndForgot id v) :
    ¬ Unwritten v.past := by
  obtain ⟨e, e', rest, hpast, hwrites, _⟩ := h
  intro hall
  rw [hpast] at hall
  exact Bool.false_ne_true
    (hwrites.symm.trans (hall e (List.mem_cons_of_mem _ List.mem_cons_self)))

/-- What an answer of `updateStaff` says of what was seen. -/
def UpdatePost (bcrypt : Bcrypt) (venueId targetId actorId : Id) (input : StaffUpdate) (salt : ℕ)
    (v : View api World) : Except DbError (Except StaffError Unit) → Prop
  | .ok (.error e) => Unwritten v.past ∧ ∃ e₁ ∈ v.past, ∃ e₂ ∈ v.past,
      updateRefusal bcrypt targetId actorId input salt (e₁.before.staffOf targetId venueId)
        (e₂.before.otherActiveAdmins venueId targetId) = some e
  | .ok (.ok _) => WroteAndForgot targetId v
  | .error _ => False

/-- What an answer of `changeOwnPassword` says of what was seen. -/
def ChangePost (bcrypt : Bcrypt) (staffId : Id) (input : PasswordChange) (v : View api World) :
    Except DbError (Except StaffError Unit) → Prop
  | .ok (.error e) => Unwritten v.past ∧ ∃ e₁ ∈ v.past,
      passwordRefusal bcrypt input (e₁.before.staffUsers.get? staffId) = some e
  | .ok (.ok _) => WroteAndForgot staffId v
  | .error _ => False

/-- An account as somebody who asks in this world may be told of it. -/
def World.Shows (w : World) (staffId : Id) (a : Account) : Prop :=
  (∃ s, w.accountCache staffId = some s ∧ a = s.account)
    ∨ ∃ u, w.staffUsers.get? staffId = some u ∧ a = u.account

/-- **Who is let in was seen active, on the version of the token.** -/
def StaffPost (token : Option TokenClaims) (v : View api World) :
    Except DbError (Option SignedIn) → Prop
  | .ok (some _) => ∃ claims sub, token = some claims ∧ claims.sub = some sub
      ∧ ∃ e ∈ v.past, ∃ a, e.before.Shows sub a ∧ a.active = true
        ∧ claims.ver.getD (-1) = a.tokenVersion
  | _ => True

theorem createStaff_ok (venueId : Id) (input : StaffCreate) (salt : ℕ)
    (hr : ∃ venueId input salt, r = .create venueId input salt) :
    (staffProtocol bcrypt arrives).Ok r (fun _ _ => True) v
      (createStaff bcrypt venueId input salt) := by
  unfold createStaff
  refine Protocol.ok_bind (Protocol.ok_attempt (Protocol.ok_mono
    (Q := fun _ _ => True) ?_ (fun v x _ => ?_)))
  · refine ok_last (fun w c w' x _ _ _ hx => ⟨takes_staff ?_, trivial⟩)
    replace hx : w.staffUserCreate _ = (w', x) := hx
    unfold World.staffUserCreate at hx
    split at hx
    · cases hx
      exact .created _ rfl hr (.inl rfl) rfl
    · cases hx
      exact .created _ rfl hr (.inr rfl) rfl
  · cases x with
    | ok id => exact trivial
    | error e =>
      cases e with
      | p2002 target => exact trivial
      | p2003 => exact trivial
      | p2025 => exact trivial
      | failed => exact trivial

theorem staffOf_some {id venueId : Id} {u : StaffUser} (h : w.staffOf id venueId = some u) :
    w.staffUsers.get? id = some u ∧ u.venueId = venueId := by
  obtain ⟨hrow, hvenue⟩ := Option.filter_eq_some_iff.mp h
  exact ⟨hrow, beq_iff_eq.mp hvenue⟩

variable (bcrypt arrives) in
/-- What is left of an update whose target was found and is not its own actor's: the
guard, whatever it has read, and the write. -/
theorem updateStaff_write_ok {venueId targetId actorId : Id} {input : StaffUpdate} {salt : ℕ}
    (hr : r = .update venueId targetId actorId input salt) {e₁ e₂ : Event api World}
    {target : StaffUser} (hfound : e₁.before.staffOf targetId venueId = some target)
    (hself : ¬ (targetId = actorId ∧ input.active = some false))
    (hdemote : ¬ (targetId = actorId ∧ input.role = some .desk)) (hpast : Unwritten v.past)
    (hmem₁ : e₁ ∈ v.past) (hmem₂ : e₂ ∈ v.past)
    (hrow : ∃ u, v.since.staffUsers.get? targetId = some u) :
    (staffProtocol bcrypt arrives).Ok r (UpdatePost bcrypt venueId targetId actorId input salt) v
      (if (losesAdmin target input && e₂.before.otherActiveAdmins venueId targetId == 0) = true
        then .ret (.error .last_admin)
        else if (input.data (bcrypt.hash salt)).isEmpty = true
        then .ret (.error .nothing_to_do)
        else (perform (.staffUserUpdate targetId (input.data (bcrypt.hash salt)).write)).bind
          (fun _ => (invalidateStaffCache targetId).bind (fun _ => .ret (.ok ())))) := by
  have hseen : updateRefusal bcrypt targetId actorId input salt (e₁.before.staffOf targetId venueId)
      (e₂.before.otherActiveAdmins venueId targetId)
      = if (losesAdmin target input && e₂.before.otherActiveAdmins venueId targetId == 0) = true
          then some .last_admin
        else if (input.data (bcrypt.hash salt)).isEmpty = true then some .nothing_to_do
        else none := by
    rw [hfound, updateRefusal, if_neg hself, if_neg hdemote]
  by_cases hlast : (losesAdmin target input
      && e₂.before.otherActiveAdmins venueId targetId == 0) = true
  · rw [if_pos hlast] at hseen ⊢
    exact ⟨hpast, e₁, hmem₁, e₂, hmem₂, hseen⟩
  rw [if_neg hlast] at hseen ⊢
  by_cases hempty : (input.data (bcrypt.hash salt)).isEmpty = true
  · rw [if_pos hempty] at hseen ⊢
    exact ⟨hpast, e₁, hmem₁, e₂, hmem₂, hseen⟩
  rw [if_neg hempty] at hseen ⊢
  refine ok_writeStaff (by rw [hr]; rfl) hpast ?_ hrow (fun w w₁ w₂ w₃ _ => ?_)
  · rw [hr]
    exact ⟨e₁, hmem₁, e₂, hmem₂, hseen⟩
  · exact ⟨⟨.staffUserUpdate targetId _, w, w₁⟩, _, _, rfl, rfl, rfl⟩

theorem updateStaff_ok (venueId targetId actorId : Id) (input : StaffUpdate) (salt : ℕ)
    (hr : r = .update venueId targetId actorId input salt) (hv : v.past = []) :
    (staffProtocol bcrypt arrives).Ok r (UpdatePost bcrypt venueId targetId actorId input salt) v
      (updateStaff bcrypt venueId targetId actorId input salt) := by
  unfold updateStaff
  refine ok_look _ (fun w₁ _ => ?_)
  set e₁ : Event api World := ⟨.query (fun w : World => w.staffOf targetId venueId), w₁, w₁⟩
  have hpast₁ : Unwritten (v.push e₁).past := by simp [Unwritten, hv, e₁, Call.sparesStaff]
  have hmem₁ : e₁ ∈ (v.push e₁).past := List.mem_cons_self
  cases hfound : w₁.staffOf targetId venueId with
  | none =>
    refine ⟨hpast₁, e₁, hmem₁, e₁, hmem₁, ?_⟩
    show updateRefusal bcrypt targetId actorId input salt (w₁.staffOf targetId venueId) _ = _
    rw [hfound]
    rfl
  | some target =>
    dsimp only
    by_cases hself : targetId = actorId ∧ input.active = some false
    · rw [if_pos hself]
      refine ⟨hpast₁, e₁, hmem₁, e₁, hmem₁, ?_⟩
      show updateRefusal bcrypt targetId actorId input salt (w₁.staffOf targetId venueId) _ = _
      rw [hfound, updateRefusal, if_pos hself]
    rw [if_neg hself]
    by_cases hdemote : targetId = actorId ∧ input.role = some .desk
    · rw [if_pos hdemote]
      refine ⟨hpast₁, e₁, hmem₁, e₁, hmem₁, ?_⟩
      show updateRefusal bcrypt targetId actorId input salt (w₁.staffOf targetId venueId) _ = _
      rw [hfound, updateRefusal, if_neg hself, if_pos hdemote]
    rw [if_neg hdemote]
    have hrow₁ := (staffOf_some hfound).1
    by_cases hloses : losesAdmin target input = true
    · rw [if_pos hloses]
      refine Protocol.ok_bind (Protocol.ok_map (ok_last (fun w₂ c w' x _ hw₂ _ hx => ?_)))
      cases hx
      refine ⟨takes_staff (.quiet rfl rfl rfl), ?_⟩
      obtain ⟨u, hu, _⟩ := rely_accounts hw₂ targetId target hrow₁
      set e₂ : Event api World :=
        ⟨.query (fun w : World => w.otherActiveAdmins venueId targetId), w₂, w₂⟩
      have hgoal := updateStaff_write_ok bcrypt arrives (v := (v.push e₁).push e₂) hr hfound hself hdemote
        (by simp [Unwritten, hv, e₁, e₂, Call.sparesStaff]) (List.mem_cons_of_mem _ hmem₁)
        List.mem_cons_self ⟨u, hu⟩
      rw [hloses, Bool.true_and] at hgoal
      exact hgoal
    · rw [if_neg hloses]
      have hgoal := updateStaff_write_ok bcrypt arrives hr hfound hself hdemote hpast₁ hmem₁
        hmem₁ ⟨target, hrow₁⟩
      rw [Bool.not_eq_true] at hloses
      rw [hloses, Bool.false_and] at hgoal
      exact hgoal

theorem changeOwnPassword_ok (staffId : Id) (input : PasswordChange) (salt : ℕ)
    (hr : r = .changePassword staffId input salt) (hv : v.past = []) :
    (staffProtocol bcrypt arrives).Ok r (ChangePost bcrypt staffId input) v
      (changeOwnPassword bcrypt staffId input salt) := by
  unfold changeOwnPassword
  refine ok_look _ (fun w₁ _ => ?_)
  set e₁ : Event api World := ⟨.query (fun w : World => w.staffUsers.get? staffId), w₁, w₁⟩
  have hpast₁ : Unwritten (v.push e₁).past := by simp [Unwritten, hv, e₁, Call.sparesStaff]
  have hmem₁ : e₁ ∈ (v.push e₁).past := List.mem_cons_self
  cases hfound : w₁.staffUsers.get? staffId with
  | none =>
    refine ⟨hpast₁, e₁, hmem₁, ?_⟩
    show passwordRefusal bcrypt input (w₁.staffUsers.get? staffId) = _
    rw [hfound]
    rfl
  | some user =>
    dsimp only
    by_cases hwrong : (!bcrypt.compare input.currentPassword user.passwordHash) = true
    · rw [if_pos hwrong]
      refine ⟨hpast₁, e₁, hmem₁, ?_⟩
      show passwordRefusal bcrypt input (w₁.staffUsers.get? staffId) = _
      rw [hfound, passwordRefusal, if_pos hwrong]
    rw [if_neg hwrong]
    have hseen : passwordRefusal bcrypt input (e₁.before.staffUsers.get? staffId) = none := by
      show passwordRefusal bcrypt input (w₁.staffUsers.get? staffId) = _
      rw [hfound, passwordRefusal, if_neg hwrong]
    refine ok_writeStaff (by rw [hr]; rfl) hpast₁ ?_ ⟨user, hfound⟩ (fun w w₁ w₂ w₃ _ => ?_)
    · rw [hr]
      exact ⟨e₁, hmem₁, hseen⟩
    · exact ⟨⟨.staffUserUpdate staffId _, w, w₁⟩, _, _, rfl, rfl, rfl⟩

/-- An account looked up is one that is shown. -/
theorem accountState_ok (staffId : Id) :
    (staffProtocol bcrypt arrives).Ok r (fun v x => ∀ a, x = .ok (some a) →
      ∃ e ∈ v.past, e.before.Shows staffId a) v (accountState staffId) := by
  unfold accountState
  refine ok_look _ (fun w₁ _ => ?_)
  cases hcached : w₁.cachedAccount staffId with
  | some state =>
    intro a ha
    cases ha
    refine ⟨_, List.mem_cons_self, .inl ⟨state, ?_, rfl⟩⟩
    exact (Option.filter_eq_some_iff.mp hcached).1
  | none =>
    refine ok_look _ (fun w₂ _ => ?_)
    cases huser : w₂.staffUsers.get? staffId with
    | none =>
      refine ok_write (fun w c w' x _ _ _ hx => ?_)
      cases hx
      exact ⟨takes_staff (.forgot staffId rfl rfl rfl), fun a ha => by cases ha⟩
    | some user =>
      refine ok_write (fun w c w' x _ _ _ hx => ?_)
      cases hx
      refine ⟨takes_staff (.remembered staffId user rfl huser rfl rfl), fun a ha => ?_⟩
      cases ha
      exact ⟨_, List.mem_cons_of_mem _ List.mem_cons_self, .inr ⟨user, huser, rfl⟩⟩

theorem getStaff_ok (token : Option TokenClaims) :
    (staffProtocol bcrypt arrives).Ok r (StaffPost token) v (getStaff token) := by
  unfold getStaff
  cases token with
  | none => exact trivial
  | some claims =>
    dsimp only
    cases hsub : claims.sub with
    | none => exact trivial
    | some sub =>
      dsimp only
      refine Protocol.ok_bind (Protocol.ok_mono (accountState_ok sub) (fun v' x hx => ?_))
      cases x with
      | error e => exact trivial
      | ok found =>
        cases found with
        | none => exact trivial
        | some account =>
          dsimp only
          split
          · exact trivial
          · next hactive =>
            split
            · exact trivial
            · next hver =>
              obtain ⟨e, he, hshows⟩ := hx account rfl
              exact ⟨claims, sub, rfl, hsub, e, he, account, hshows, by simpa using hactive,
                not_not.mp hver⟩

/-- What each answer says. -/
def staffPost (bcrypt : Bcrypt) :
    StaffRequest → View api World → Except DbError StaffAnswer → Prop
  | .update venueId targetId actorId input salt, v, .ok (.updated a) =>
    UpdatePost bcrypt venueId targetId actorId input salt v (.ok a)
  | .changePassword staffId input _, v, .ok (.changed a) => ChangePost bcrypt staffId input v (.ok a)
  | .getStaff token, v, .ok (.staff a) => StaffPost token v (.ok a)
  | .create _ _ _, _, _ => True
  | .getStaff _, _, .error _ => True
  | _, _, _ => False

/-- **The requests do to the accounts what they may, and nothing else.** -/
theorem staffSound (bcrypt : Bcrypt) (arrives : Bool) :
    (staffProtocol bcrypt arrives).Sound (staffPost bcrypt) where
  env e w _ := by
    cases e with
    | tick ms => exact ⟨trivial, .of_eq rfl⟩
    | crash => exact ⟨trivial, .of_eq rfl⟩
  entry r w _ := by
    cases r with
    | create venueId input salt =>
      exact Protocol.ok_map (Protocol.ok_mono
        (createStaff_ok venueId input salt ⟨venueId, input, salt, rfl⟩) (fun _ _ _ => trivial))
    | update venueId targetId actorId input salt =>
      refine Protocol.ok_map (Protocol.ok_mono
        (updateStaff_ok venueId targetId actorId input salt rfl rfl) (fun v x hx => ?_))
      cases x with
      | ok a => exact hx
      | error e => exact hx
    | changePassword staffId input salt =>
      refine Protocol.ok_map (Protocol.ok_mono
        (changeOwnPassword_ok staffId input salt rfl rfl) (fun v x hx => ?_))
      cases x with
      | ok a => exact hx
      | error e => exact hx
    | getStaff token =>
      refine Protocol.ok_map (Protocol.ok_mono (getStaff_ok token) (fun v x hx => ?_))
      cases x with
      | ok a => exact hx
      | error e => exact trivial

/-! ## A venue with two managers -/

/-- A password hash that hides nothing: the salt, and the password. -/
def openHash : Bcrypt where
  hash salt plain := salt.toUInt16 :: plain
  compare plain hash := hash.tail == plain

/-- Two managers of one venue, each with a password of eight characters. -/
def twoManagers : World :=
  { World.blank 0 with
    staffUsers := Rows.ofList
      [⟨0, text "a@b.co", text "A", openHash.hash 1 (text "password"), .admin, true, 0⟩,
        ⟨0, text "c@d.co", text "C", openHash.hash 2 (text "passw0rd"), .admin, true, 0⟩] }

end Masadan
