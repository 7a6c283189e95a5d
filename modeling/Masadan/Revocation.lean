import Masadan.Accounts

/-!
# A revocation takes effect at once

A token outlives the session it was cut for, so whoever takes an account's rights away
counts its token version up and drops what the process remembers of it: the next
request reads the account again.

What is remembered is put there by a request that has read the account some calls ago.
One that has read it before the update, and remembers it after the account was dropped,
brings back what was revoked, for half a minute (`revocation_fails`). Where accounts are
remembered only as they still are, whoever asks after a revocation is measured by what
the revocation left (`revocation`).
-/

namespace Masadan

/-- The account whose tokens a request revokes. -/
def StaffRequest.revokes : StaffRequest → Option Id
  | .update _ targetId _ input _ => if input.mustRevoke then some targetId else none
  | .changePassword staffId _ _ => some staffId
  | _ => none

/-- `{ ok: true }`. -/
def StaffAnswer.IsOk : StaffAnswer → Prop
  | .updated (.ok _) | .changed (.ok _) => True
  | _ => False

/-- **An account is remembered as it still is**: as it was read a call ago, it is on the
same version, and active or not as it was. -/
def freshFill (v : View api World) (op : Call) (w : World) : Bool :=
  match op with
  | .accountCacheSet id _ =>
    (v.since.staffUsers.get? id).map (fun u => (u.tokenVersion, u.active))
      == (w.staffUsers.get? id).map (fun u => (u.tokenVersion, u.active))
  | _ => true

/-- What the requests promise when accounts are remembered as they still are. -/
abbrev freshProtocol (bcrypt : Bcrypt) : Protocol (staffServer bcrypt true) :=
  (staffProtocol bcrypt true).under (fun _ v _ op w => freshFill v op w)

/-- A run of the requests. -/
abbrev staffRun (bcrypt : Bcrypt) (w₀ : World) (acts : List (staffServer bcrypt true).Action) :
    (staffServer bcrypt true).Pool :=
  Sys.Pool.run (Sys.Pool.init w₀ : (staffServer bcrypt true).Pool) acts

/-- **The `i`-th program is a revoking call and has just returned ok.** -/
structure JustRevoked (bcrypt : Bcrypt) (w₀ : World) (pre : List (staffServer bcrypt true).Action)
    (a : (staffServer bcrypt true).Action) (i : ℕ) (staffId : Id) : Prop where
  revokes : ∃ t, (staffRun bcrypt w₀ pre).threads[i]? = some t ∧ t.req.revokes = some staffId
  running : (staffRun bcrypt w₀ pre).outcome i = none
  returned : ∃ x, (staffRun bcrypt w₀ (pre ++ [a])).outcome i = some (.ok x) ∧ x.IsOk

/-- The account is deactivated. -/
def World.Inactive (w : World) (staffId : Id) : Prop :=
  ∃ u, w.staffUsers.get? staffId = some u ∧ u.active = false

/-- The account, and what is remembered of it, are on a version no older than `n`. -/
structure VersionFrom (staffId : Id) (n : ℤ) (w : World) : Prop where
  row : ∃ u, w.staffUsers.get? staffId = some u ∧ n ≤ u.tokenVersion
  cache : ∀ s, w.accountCache staffId = some s → n ≤ s.tokenVersion

/-- The account is deactivated, and nothing else is remembered of it. -/
structure OutOfUse (staffId : Id) (w : World) : Prop where
  row : w.Inactive staffId
  cache : ∀ s, w.accountCache staffId = some s → s.active = false

/-! ## One call -/

section

variable {bcrypt : Bcrypt} {r : StaffRequest} {v : View api World} {op : Call} {w w' : World}
  {staffId : Id}

/-- **What is remembered after a call** was remembered before, or is the account as it
is. -/
theorem StaffStep.cache (h : StaffStep bcrypt r v op w w') (hfresh : freshFill v op w = true)
    {s : AccountState} (hs : w'.accountCache staffId = some s) :
    w.accountCache staffId = some s
      ∨ ∃ u, w.staffUsers.get? staffId = some u ∧ s.tokenVersion = u.tokenVersion
        ∧ s.active = u.active := by
  cases h with
  | quiet hop hstaff hcache => exact .inl (by rw [← hcache]; exact hs)
  | created data hop hr hstaff hcache => exact .inl (by rw [← hcache]; exact hs)
  | written id data hop hr hpast hpermitted hstaff hcache => exact .inl (by rw [← hcache]; exact hs)
  | forgot id hop hstaff hcache =>
    rw [hcache] at hs
    dsimp only at hs
    split at hs
    · cases hs
    · exact .inl hs
  | remembered id u hop hread hstaff hcache =>
    rw [hcache] at hs
    dsimp only at hs
    split at hs
    · next hid =>
      subst hid hop
      cases hs
      replace hfresh : ((v.since.staffUsers.get? staffId).map (fun u => (u.tokenVersion, u.active))
        == (w.staffUsers.get? staffId).map (fun u => (u.tokenVersion, u.active))) = true := hfresh
      rw [hread, Option.map_some, beq_iff_eq] at hfresh
      obtain ⟨u', hu', heq⟩ := Option.map_eq_some_iff.mp hfresh.symm
      obtain ⟨hver, hactive⟩ := Prod.mk.inj heq
      exact .inr ⟨u', hu', hver.symm, hactive.symm⟩
    · exact .inl hs

theorem VersionFrom.step {n : ℤ} (h : VersionFrom staffId n w) (hstep : StaffStep bcrypt r v op w w')
    (hfresh : freshFill v op w = true) : VersionFrom staffId n w' := by
  obtain ⟨u, hu, hn⟩ := h.row
  obtain ⟨u', hu', _, hver⟩ := hstep.kept staffId u hu
  refine ⟨⟨u', hu', hn.trans hver⟩, fun s hs => ?_⟩
  rcases hstep.cache hfresh hs with hs | ⟨u₁, hu₁, hver₁, _⟩
  · exact h.cache s hs
  · rw [hu] at hu₁
    cases hu₁
    rw [hver₁]
    exact hn

theorem OutOfUse.step (h : OutOfUse staffId w) (hstep : StaffStep bcrypt r v op w w')
    (hfresh : freshFill v op w = true) (hrow : w'.Inactive staffId) : OutOfUse staffId w' := by
  refine ⟨hrow, fun s hs => ?_⟩
  rcases hstep.cache hfresh hs with hs | ⟨u₁, hu₁, _, hactive⟩
  · exact h.cache s hs
  · obtain ⟨u, hu, hinactive⟩ := h.row
    rw [hu] at hu₁
    cases hu₁
    rw [hactive, hinactive]

end

/-! ## Every run -/

section

variable {bcrypt : Bcrypt} {w₀ : World} {staffId : Id}
  {pre mid : List (staffServer bcrypt true).Action}

theorem fresh_ok {acts : List (staffServer bcrypt true).Action}
    (h : Sys.Pool.Meets (freshProtocol bcrypt).cond (Sys.Pool.init w₀) acts = true) :
    (freshProtocol bcrypt).PoolOk (staffPost bcrypt) w₀ (staffRun bcrypt w₀ acts) :=
  ((staffSound bcrypt true).under (fun _ v _ op w => freshFill v op w)).run trivial h

/-- **What each call keeps, a part of a run keeps**, as long as the worlds it leads
through are as `side` says. -/
theorem kept_along (K side : World → Prop)
    (hK : ∀ r v op w w', StaffStep bcrypt r v op w w' → freshFill v op w = true → K w → side w' →
      K w') (htick : ∀ w now, K w → K { w with now := now })
    (h : Sys.Pool.Meets (freshProtocol bcrypt).cond (Sys.Pool.init w₀) (pre ++ mid) = true)
    (hside : ∀ m, m <+: mid → side (staffRun bcrypt w₀ (pre ++ m)).world)
    (hpre : K (staffRun bcrypt w₀ pre).world) : K (staffRun bcrypt w₀ (pre ++ mid)).world := by
  by_contra hnot
  rw [staffRun, Sys.Pool.run_append] at hnot
  obtain ⟨m, a, rest, rfl, hm, hleft⟩ := Sys.Pool.exists_leaving
    (I := fun p : (staffServer bcrypt true).Pool => K p.world) hpre hnot
  rw [← List.append_assoc, Sys.Pool.meets_append, Sys.Pool.meets_cons] at h
  have hsidea := hside (m ++ [a]) ⟨rest, by rw [List.append_assoc]; rfl⟩
  rw [staffRun, ← List.append_assoc, Sys.Pool.run_concat] at hsidea
  rw [← Sys.Pool.run_append] at hm hleft
  rw [← List.append_assoc, Sys.Pool.run_concat] at hleft
  rcases (fresh_ok h.1).act_cases h.2.1 with
    hsame | ⟨e, rfl, henv⟩ | ⟨i, c, t, op, k, rfl, ht, _, _, hg, htakes⟩
  · rw [hsame] at hleft
    exact hleft hm
  · rw [henv] at hleft
    cases e with
    | tick ms => exact hleft (htick _ _ hm)
    | crash => exact hleft hm
  · exact hleft (hK _ _ _ _ _ htakes.here ((staffProtocol bcrypt true).under_guard.mp hg).2 hm hsidea)

/-- A revoking call that answers ok has dropped what is remembered, last of all. -/
theorem revoked_post {r : StaffRequest} {v : View api World} {x : StaffAnswer}
    (h : staffPost bcrypt r v (.ok x)) (hr : r.revokes = some staffId) (hx : x.IsOk) :
    WroteAndForgot staffId v := by
  cases r with
  | create venueId input salt => cases hr
  | getStaff token => cases hr
  | update venueId targetId actorId input salt =>
    replace hr : (if input.mustRevoke then some targetId else none) = some staffId := hr
    split at hr
    · cases hr
      cases x with
      | updated answer =>
        cases answer with
        | ok _ => exact h
        | error _ => exact hx.elim
      | changed _ => exact h.elim
      | created _ => exact hx.elim
      | staff _ => exact hx.elim
    · cases hr
  | changePassword id input salt =>
    cases hr
    cases x with
    | changed answer =>
      cases answer with
      | ok _ => exact h
      | error _ => exact hx.elim
    | updated _ => exact h.elim
    | created _ => exact hx.elim
    | staff _ => exact hx.elim

/-- **Once a revoking call has returned, nothing is remembered.** -/
theorem JustRevoked.forgotten {a : (staffServer bcrypt true).Action} {i : ℕ}
    (h : JustRevoked bcrypt w₀ pre a i staffId)
    (hm : Sys.Pool.Meets (freshProtocol bcrypt).cond (Sys.Pool.init w₀) (pre ++ [a]) = true) :
    (staffRun bcrypt w₀ (pre ++ [a])).world.accountCache staffId = none := by
  obtain ⟨t₀, ht₀, hrevokes⟩ := h.revokes
  obtain ⟨x, hout, hx⟩ := h.returned
  obtain ⟨t, ht, hout⟩ := Option.bind_eq_some_iff.mp hout
  have hok := fresh_ok hm
  rw [staffRun, Sys.Pool.run_concat] at ht hok ⊢
  obtain ⟨t', ht', hreq, _, _⟩ := Sys.Pool.act_persists (a := a)
    (fun e => by cases e <;> rfl) ht₀
  obtain rfl : t = t' := Option.some.inj (ht.symm.trans ht')
  rw [← hreq] at hrevokes
  obtain ⟨e, e', rest, hpast, _, hop⟩ :=
    revoked_post (hok.post (List.mem_of_getElem? ht) hout) hrevokes hx
  rcases Sys.Pool.act_thread ht with hnil | hsame | ⟨c, t₁, op, k, rfl, _, _, hworld, hpush⟩
  · rw [hnil] at hpast
    cases hpast
  · -- it has returned before
    have hrunning := h.running
    rw [Sys.Pool.outcome, hsame, Option.bind_some, hout] at hrunning
    cases hrunning
  · -- it has just made its last call
    rw [hpush] at hpast
    obtain ⟨rfl, _⟩ := List.cons.inj hpast
    replace hop : op = .accountCacheDelete staffId := hop
    subst hop
    rw [hworld]
    exact if_pos rfl

end

/-- **A revocation takes effect at once**, in every run in which accounts are remembered
as they still are: whoever asks after the call has returned is rejected with a token older
than the version it left, and with any token while the account stays deactivated. -/
theorem revocation (bcrypt : Bcrypt) (w₀ : World) (pre post : List (staffServer bcrypt true).Action)
    (a : (staffServer bcrypt true).Action)
    (h : Sys.Pool.Meets (freshProtocol bcrypt).cond (Sys.Pool.init w₀) (pre ++ a :: post) = true)
    (i : ℕ) (staffId : Id) (hrevoked : JustRevoked bcrypt w₀ pre a i staffId) (j : ℕ)
    (hj : (staffRun bcrypt w₀ (pre ++ [a])).threads.length ≤ j)
    (t : (staffServer bcrypt true).Thread)
    (ht : (staffRun bcrypt w₀ (pre ++ a :: post)).threads[j]? = some t) (token : TokenClaims)
    (hreq : t.req = .getStaff (some token)) (hsub : token.sub = some staffId)
    (answer : Option SignedIn) (hanswer : t.outcome = some (.ok (.staff answer))) :
    (∀ u, (staffRun bcrypt w₀ (pre ++ [a])).world.staffUsers.get? staffId = some u →
        token.ver.getD (-1) < u.tokenVersion → answer = none)
      ∧ ((∀ m, m <+: post → (staffRun bcrypt w₀ (pre ++ a :: m)).world.Inactive staffId) →
        answer = none) := by
  have hkills : ∀ e, (staffServer bcrypt true).kills e = false := fun e => by cases e <;> rfl
  have hpost := (fresh_ok h).post (List.mem_of_getElem? ht) hanswer
  rw [hreq] at hpost
  cases answer with
  | none => exact ⟨fun _ _ _ => rfl, fun _ => rfl⟩
  | some signedIn =>
    obtain ⟨claims, sub, hclaims, hsub', e, he, account, hshows, hactive, hver⟩ := hpost
    cases hclaims
    obtain rfl : sub = staffId := Option.some.inj (hsub'.symm.trans hsub)
    -- what it was shown, it was shown after the revocation
    obtain ⟨pre₁, c, post₁, hsplit, hcalled⟩ := Sys.Pool.called ht he
    rw [List.append_cons] at hsplit
    have hlater := hcalled
    obtain ⟨mid, rfl, rfl⟩ := hcalled.not_before hkills hj hsplit.symm
    rw [List.append_cons] at h
    have hmeets := h
    rw [← List.append_assoc, Sys.Pool.meets_append] at h
    have hcache : (staffRun bcrypt w₀ (pre ++ [a])).world.accountCache sub = none :=
      hrevoked.forgotten (Sys.Pool.meets_append.mp hmeets).1
    have hbefore : e.before = (staffRun bcrypt w₀ (pre ++ [a] ++ mid)).world := hcalled.before
    rw [hbefore] at hshows
    refine ⟨fun u hu hold => ?_, fun hinactive => ?_⟩
    · have hkept := kept_along (VersionFrom sub u.tokenVersion) (fun _ => True)
        (fun _ _ _ _ _ hstep hfresh hK _ => hK.step hstep hfresh) (fun _ _ hK => ⟨hK.row, hK.cache⟩)
        h.1 (fun _ _ => trivial) ⟨⟨u, hu, le_refl _⟩, fun s hs => by rw [hcache] at hs; cases hs⟩
      rcases hshows with ⟨s, hs, rfl⟩ | ⟨u₁, hu₁, rfl⟩
      · have hn := hkept.cache s hs
        have hver : token.ver.getD (-1) = s.tokenVersion := hver
        omega
      · obtain ⟨u₂, hu₂, hn⟩ := hkept.row
        obtain rfl : u₁ = u₂ := Option.some.inj (hu₁.symm.trans hu₂)
        have hver : token.ver.getD (-1) = u₁.tokenVersion := hver
        omega
    · have hkept := kept_along (OutOfUse sub) (fun w => w.Inactive sub)
        (fun _ _ _ _ _ hstep hfresh hK hside => hK.step hstep hfresh hside)
        (fun _ _ hK => ⟨hK.row, hK.cache⟩) h.1 ?_ ⟨hinactive [] (List.nil_prefix),
          fun s hs => by rw [hcache] at hs; cases hs⟩
      · rcases hshows with ⟨s, hs, rfl⟩ | ⟨u₁, hu₁, rfl⟩
        · exact Bool.false_ne_true ((hkept.cache s hs).symm.trans hactive) |>.elim
        · obtain ⟨u₂, hu₂, hdead⟩ := hkept.row
          obtain rfl : u₁ = u₂ := Option.some.inj (hu₁.symm.trans hu₂)
          exact (Bool.false_ne_true (hdead.symm.trans hactive)).elim
      · intro m hm
        rw [List.append_assoc]
        exact hinactive m (hm.trans (List.prefix_append _ _))

/-! ## A dismissal -/

def deactivate : StaffUpdate where
  name := none
  role := none
  active := some false
  password := none
  signOutEverywhere := none
  zod := .plain
  nameLength := StaffUpdate.no_name _
  passwordLength := StaffUpdate.no_password _

/-- A token of the second manager. -/
def itsToken : TokenClaims := ⟨some 1, 0, some 0⟩

/-- A request of the second manager reads the account; the first manager deactivates it,
all but the last call. -/
def readAndDismissed : List (staffServer openHash true).Action :=
  [.arrive (.getStaff (some itsToken)), .step 0 plain, .step 0 plain,
    .arrive (.update 0 1 0 deactivate 0), .step 1 plain, .step 1 plain, .step 1 plain]

/-- **A revocation can be undone by what was read before it**: it is remembered after the
revocation has returned, and the next request is let in. -/
theorem revocation_fails :
    ¬ ∀ (bcrypt : Bcrypt) (w₀ : World) (pre post : List (staffServer bcrypt true).Action)
      (a : (staffServer bcrypt true).Action) (i : ℕ) (staffId : Id),
      JustRevoked bcrypt w₀ pre a i staffId → ∀ (j : ℕ),
      (staffRun bcrypt w₀ (pre ++ [a])).threads.length ≤ j →
      ∀ (t : (staffServer bcrypt true).Thread),
      (staffRun bcrypt w₀ (pre ++ a :: post)).threads[j]? = some t → ∀ (token : TokenClaims),
      t.req = .getStaff (some token) → token.sub = some staffId → ∀ (answer : Option SignedIn),
      t.outcome = some (.ok (.staff answer)) →
      (∀ u, (staffRun bcrypt w₀ (pre ++ [a])).world.staffUsers.get? staffId = some u →
          token.ver.getD (-1) < u.tokenVersion → answer = none)
        ∧ ((∀ m, m <+: post → (staffRun bcrypt w₀ (pre ++ a :: m)).world.Inactive staffId) →
          answer = none) := by
  intro h
  have hanswer := (h openHash twoManagers readAndDismissed
    [.step 0 plain, .arrive (.getStaff (some itsToken)), .step 2 plain] (.step 1 plain) 1 1
    ⟨⟨_, rfl, rfl⟩, rfl, _, rfl, trivial⟩ 2 (by decide) _ rfl itsToken rfl rfl _ rfl).1 _ rfl
    (by decide)
  cases hanswer

/-- Where nobody was about, the dismissed manager is not let in. -/
theorem revocation_seen :
    (∀ u, (staffRun openHash twoManagers
          ([.arrive (.update 0 1 0 deactivate 0), .step 0 plain, .step 0 plain, .step 0 plain]
            ++ [.step 0 plain])).world.staffUsers.get? 1 = some u →
        itsToken.ver.getD (-1) < u.tokenVersion → (none : Option SignedIn) = none)
      ∧ ((∀ m, m <+: [.arrive (.getStaff (some itsToken)), .step 1 plain, .step 1 plain,
            .step 1 plain] → (staffRun openHash twoManagers
          ([.arrive (.update 0 1 0 deactivate 0), .step 0 plain, .step 0 plain, .step 0 plain]
            ++ .step 0 plain :: m)).world.Inactive 1) → (none : Option SignedIn) = none) :=
  revocation openHash twoManagers
    [.arrive (.update 0 1 0 deactivate 0), .step 0 plain, .step 0 plain, .step 0 plain]
    [.arrive (.getStaff (some itsToken)), .step 1 plain, .step 1 plain, .step 1 plain]
    (.step 0 plain) (by decide) 0 1 ⟨⟨_, rfl, rfl⟩, rfl, _, rfl, trivial⟩ 1 (by decide) _ rfl
    itsToken rfl rfl none rfl

end Masadan
