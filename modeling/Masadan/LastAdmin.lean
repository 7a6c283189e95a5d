import Masadan.Accounts

/-!
# A venue keeps an admin

An admin who is about to take another admin's rights away must not be the one who
leaves the venue with nobody to manage it. `updateStaff` counts the other active
admins first, and refuses when there are none.

The count is one call and the write is another. Two managers who demote each other
both count one, and both write (`last_admin_fails`). Where the guard would still hold
as the update is written, it does what it is for (`last_admin`), and it does hold where nobody's
account is changed between the reads of an update and its write (`guard_holds_of_read`).
-/

namespace Masadan

/-- How many active admins the venue has. -/
def World.activeAdmins (w : World) (venueId : Id) : ℕ :=
  w.staffUsers.count (fun _ u => activeAdmin venueId u)

/-- **The guard holds as the update is written**: the target is not taken away from the
admins then, or it is not the last one then. -/
def guardHolds (r : StaffRequest) (op : Call) (w : World) : Bool :=
  match r, op with
  | .update venueId targetId _ input _, .staffUserUpdate _ _ =>
    match w.staffOf targetId venueId with
    | none => true
    | some target => !(losesAdmin target input && w.otherActiveAdmins venueId targetId == 0)
  | _, _ => true

/-- What the requests promise when the guard holds as it is acted on. -/
abbrev adminProtocol (bcrypt : Bcrypt) : Protocol (staffServer bcrypt true) :=
  (staffProtocol bcrypt true).under (fun r _ _ op w => guardHolds r op w)

variable {bcrypt : Bcrypt} {w w' : World} {venueId : Id}

theorem activeAdmins_pos : 0 < w.activeAdmins venueId
    ↔ ∃ id u, w.staffUsers.get? id = some u ∧ activeAdmin venueId u = true := by
  constructor
  · intro h
    exact Rows.exists_of_count (Nat.ne_of_gt h)
  · rintro ⟨id, u, hu, hadmin⟩
    exact Rows.count_pos hu hadmin

theorem activeAdmin_iff {u : StaffUser} : activeAdmin venueId u = true
    ↔ u.venueId = venueId ∧ u.role = .admin ∧ u.active = true := by
  simp [activeAdmin, and_assoc]

/-- An update that takes an admin away says so. -/
theorem losesAdmin_of_write {input : StaffUpdate} {hash : Text → Text} {u : StaffUser}
    (hu : activeAdmin venueId u = true) (h : activeAdmin venueId ((input.data hash).write u) = false) :
    losesAdmin u input = true := by
  obtain ⟨hvenue, hrole, hactive⟩ := activeAdmin_iff.mp hu
  simp only [losesAdmin, hrole, hactive, beq_self_eq_true, Bool.true_and]
  by_contra hkeeps
  simp only [Bool.or_eq_true, beq_iff_eq, not_or] at hkeeps
  refine Bool.eq_false_iff.mp h (activeAdmin_iff.mpr ⟨hvenue, ?_, ?_⟩)
  · show input.role.getD u.role = .admin
    cases hr : input.role with
    | none => exact hrole
    | some role =>
      cases role with
      | admin => rfl
      | desk => exact absurd hr hkeeps.2
  · show input.active.getD u.active = true
    cases ha : input.active with
    | none => exact hactive
    | some active =>
      cases active with
      | true => rfl
      | false => exact absurd ha hkeeps.1

/-- **One call leaves the venue an admin** when the guard holds. The target was found in
the venue of the request, and accounts do not change their venue. -/
theorem StaffStep.activeAdmins_pos {r : StaffRequest} {v : View api World} {op : Call}
    (h : StaffStep bcrypt r v op w w') (hkept : ∀ e ∈ v.past, AccountsKept e.before w)
    (hguard : guardHolds r op w = true) (hadmin : 0 < w.activeAdmins venueId) :
    0 < w'.activeAdmins venueId := by
  have hsame : w'.staffUsers = w.staffUsers → 0 < w'.activeAdmins venueId := by
    intro hstaff
    rw [World.activeAdmins, hstaff]
    exact hadmin
  cases h with
  | quiet hop hstaff => exact hsame hstaff
  | forgot id hop hstaff => exact hsame hstaff
  | remembered id u hop hread hstaff => exact hsame hstaff
  | created data hop hr hstaff =>
    rcases hstaff with hstaff | hstaff
    · exact hsame hstaff
    · obtain ⟨id, u, hu, ha⟩ := Masadan.activeAdmins_pos.mp hadmin
      exact Masadan.activeAdmins_pos.mpr ⟨id, u, by rw [hstaff, Rows.get?_create_of_some hu], ha⟩
  | written id data hop hr hpast hpermitted hstaff =>
    -- an admin whose row is not the one written, or is one after the write too, stays
    have hstays : ∀ k u, w.staffUsers.get? k = some u →
        activeAdmin venueId (if k = id then data u else u) = true → 0 < w'.activeAdmins venueId := by
      intro k u hu ha
      refine Masadan.activeAdmins_pos.mpr ⟨k, _, ?_, ha⟩
      rw [hstaff, Rows.get?_updateAt, hu, Option.map_some]
    obtain ⟨k, u, hu, ha⟩ := Masadan.activeAdmins_pos.mp hadmin
    by_cases hk : k = id
    swap
    · exact hstays k u hu (by rw [if_neg hk]; exact ha)
    subst hk
    by_cases hafter : activeAdmin venueId (data u) = true
    · exact hstays k u hu (by rw [if_pos rfl]; exact hafter)
    rw [Bool.not_eq_true] at hafter
    cases r with
    | create venueId' input salt => cases hr
    | getStaff token => cases hr
    | changePassword staffId input salt =>
      cases hr
      exact absurd ha (Bool.eq_false_iff.mp hafter)
    | update venueId' targetId actorId input salt =>
      cases hr
      obtain ⟨e₁, he₁, e₂, he₂, hnone⟩ := hpermitted
      have hfound : ∃ target, e₁.before.staffOf k venueId' = some target := by
        cases hf : e₁.before.staffOf k venueId' with
        | none =>
          rw [hf] at hnone
          cases hnone
        | some target => exact ⟨target, rfl⟩
      obtain ⟨target, htarget⟩ := hfound
      obtain ⟨hrow, hvenue⟩ := staffOf_some htarget
      obtain ⟨u', hu', hvenue', _⟩ := hkept e₁ he₁ k target hrow
      obtain rfl : u' = u := Option.some.inj (hu'.symm.trans hu)
      obtain rfl : venueId' = venueId := by
        rw [← (activeAdmin_iff.mp ha).1, hvenue', hvenue]
      have hof : w.staffOf k venueId' = some u' := by
        rw [World.staffOf, hu, Option.filter_some, if_pos (by simp [hvenue', hvenue])]
      subst hop
      simp only [guardHolds, hof, losesAdmin_of_write ha hafter, Bool.true_and, Bool.not_eq_true',
        beq_eq_false_iff_ne] at hguard
      obtain ⟨k', u₂, hu₂, hother⟩ := Rows.exists_of_count hguard
      rw [Bool.and_eq_true, bne_iff_ne] at hother
      exact hstays k' u₂ hu₂ (by rw [if_neg hother.2]; exact hother.1)

/-- **A venue that has an active admin keeps one**, in every run of updates, creations,
password changes and sign-ins in which the guard of every update holds as it is
written. -/
theorem last_admin (bcrypt : Bcrypt) (w₀ : World) (acts : List (staffServer bcrypt true).Action)
    (h : Sys.Pool.Meets (adminProtocol bcrypt).cond (Sys.Pool.init w₀) acts = true) (venueId : Id)
    (hadmin : 0 < w₀.activeAdmins venueId) :
    0 < (Sys.Pool.run (Sys.Pool.init w₀ : (staffServer bcrypt true).Pool) acts).world.activeAdmins
      venueId := by
  have hS := (staffSound bcrypt true).under (fun r _ _ op w => guardHolds r op w)
  refine (Sys.Pool.run_induction (fun p : (staffServer bcrypt true).Pool =>
    (adminProtocol bcrypt).PoolOk (staffPost bcrypt) w₀ p ∧ 0 < p.world.activeAdmins venueId)
    (fun p a hp ha => ⟨hp.1.act hS ha, ?_⟩) ⟨Protocol.PoolOk.init trivial, hadmin⟩ h).2
  obtain ⟨hok, hpos⟩ := hp
  rcases hok.act_cases ha with hsame | ⟨e, rfl, henv⟩ | ⟨i, c, t, op, k, rfl, ht, _, _, hg, htakes⟩
  · rw [hsame]
    exact hpos
  · rw [henv]
    cases e with
    | tick ms => exact hpos
    | crash => exact hpos
  · have hstep : StaffStep bcrypt t.req t.view op p.world (p.act (.step i c)).world := htakes.here
    refine hstep.activeAdmins_pos (fun e he => ?_)
      ((staffProtocol bcrypt true).under_guard.mp hg).2 hpos
    have hmade := hok.made t (List.mem_of_getElem? ht) e he
    have hled : (staffProtocol bcrypt true).Rely e.after p.world := hmade.led
    exact AccountsKept.trans hmade.evolves (rely_accounts hled)

/-- **Nobody's account changes between** the reads of an update and its write. -/
def AccountsAsRead (_ : StaffRequest) (v : View api World) (op : Call) (w : World) : Prop :=
  ∀ id data, op = .staffUserUpdate id data → ∀ e ∈ v.past, w.staffUsers = e.before.staffUsers

/-- **Where no account changes between, the guard of every update holds as it is written**: an
update that is written has read its target, and counted the other admins if the target is to
be one no more. -/
theorem guard_holds_of_read (bcrypt : Bcrypt) (w₀ : World)
    (acts : List (staffServer bcrypt true).Action)
    (h : Protocol.Finds AccountsAsRead (Sys.Pool.init w₀) acts) :
    Sys.Pool.Meets (adminProtocol bcrypt).cond (Sys.Pool.init w₀) acts = true := by
  refine (staffSound bcrypt true).meets_of_finds trivial (fun _ _ _ _ _ => rfl) ?_ h
  intro r v c op w htakes hread
  refine (staffProtocol bcrypt true).under_guard.mpr ⟨rfl, ?_⟩
  unfold guardHolds
  split
  · next venueId targetId actorId input salt id data =>
    have hstep : StaffStep bcrypt _ v _ w _ := htakes.here
    cases hstep with
    | quiet hop hstaff => cases hop
    | created data hop hr hstaff => cases hop
    | forgot id hop hstaff => cases hop
    | remembered id u hop hrd hstaff => cases hop
    | written id data hop hr hpast hpermitted hstaff =>
      obtain ⟨e₁, he₁, e₂, he₂, hnone⟩ := hpermitted
      have hfound : e₁.before.staffOf targetId venueId = w.staffOf targetId venueId := by
        unfold World.staffOf
        rw [hread _ _ rfl e₁ he₁]
      have hothers : e₂.before.otherActiveAdmins venueId targetId
          = w.otherActiveAdmins venueId targetId := by
        unfold World.otherActiveAdmins
        rw [hread _ _ rfl e₂ he₂]
      rw [hfound, hothers] at hnone
      cases htarget : w.staffOf targetId venueId with
      | none => rfl
      | some target =>
        rw [htarget] at hnone
        dsimp only [updateRefusal] at hnone ⊢
        split at hnone
        · cases hnone
        · split at hnone
          · cases hnone
          · split at hnone
            · cases hnone
            · next hkeeps => rwa [Bool.not_eq_true', ← Bool.not_eq_true]
  · rfl

/-! ## Two managers -/

/-- A demotion. -/
def demote : StaffUpdate where
  name := none
  role := some .desk
  active := none
  password := none
  signOutEverywhere := none
  zod := .plain
  nameLength := StaffUpdate.no_name _
  passwordLength := StaffUpdate.no_password _

/-- Each demotes the other; both count before either writes. -/
def demoteEachOther : List (staffServer openHash true).Action :=
  [.arrive (.update 0 1 0 demote 0), .arrive (.update 0 0 1 demote 0),
    .step 0 plain, .step 0 plain, .step 1 plain, .step 1 plain, .step 0 plain, .step 1 plain]

/-- **A venue can lose its last admin**: to two updates that overlap. -/
theorem last_admin_fails :
    ¬ ∀ (bcrypt : Bcrypt) (w₀ : World) (acts : List (staffServer bcrypt true).Action) (venueId : Id),
      0 < w₀.activeAdmins venueId →
      0 < (Sys.Pool.run (Sys.Pool.init w₀ : (staffServer bcrypt true).Pool) acts).world.activeAdmins
        venueId := by
  intro h
  have hpos := h openHash twoManagers demoteEachOther 0 (by decide)
  exact absurd hpos (by decide)

/-- One after the other, the second is refused. -/
theorem last_admin_in_turn :
    0 < (Sys.Pool.run (Sys.Pool.init twoManagers : (staffServer openHash true).Pool)
      ([.arrive (.update 0 1 0 demote 0)] ++ List.replicate 4 (.step 0 plain)
        ++ [.arrive (.update 0 0 1 demote 0)] ++ List.replicate 4 (.step 1 plain))).world.activeAdmins
      0 :=
  last_admin openHash twoManagers _ (by decide) 0 (by decide)

end Masadan
