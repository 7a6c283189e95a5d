import Masadan.History
import Masadan.QrCodes
import Masadan.Handlers

/-!
# A reset is total

A photo of a table's code is worth as much as the table, so a code can be reset: the
version it is signed for counts up, and the sessions it brought are revoked in the same
transaction. What is signed under the old version, or the old secret, is then worth
nothing, if whoever has scanned it is not on the way to a session yet.

But a scan checks the signature on what it has read, and mints calls later. One that was
checked before a reset and mints after it has a session under a code that is no longer
good (`reset_total_fails`); and so has one that mints between the statement in which the
reset looks for the sessions and its commit. Where neither happens, no session of an old
code outlives the reset (`reset_total`).
-/

namespace Masadan

/-! ## The requests -/

inductive QrRequest where
  | scan (caller : Caller) (code sig : Text) (token : ℕ)
  | patch (staff : Option StaffClaims) (id : Id) (body : TablePatch)
  | rotate (venueId : Id) (secret : Text)

inductive QrAnswer where
  | scanned (a : ScanAnswer)
  | patched (a : TableAnswer)
  | rotated (tablesAffected : ℕ)

def QrRequest.prog (hmac : Hmac) : QrRequest → Api QrAnswer
  | .scan caller code sig token => QrAnswer.scanned <$> getScan hmac caller code sig token
  | .patch staff id body => QrAnswer.patched <$> patchTable staff id body
  | .rotate venueId secret => QrAnswer.rotated <$> rotateQrSecret venueId secret

/-- The server serving these requests. -/
abbrev qrServer (hmac : Hmac) : Sys api :=
  server (QrRequest.prog hmac) (fun _ => true) (fun _ => []) false

/-- A run of these requests, from a world. -/
abbrev qrRun (hmac : Hmac) (w₀ : World) (acts : List (qrServer hmac).Action) :
    (qrServer hmac).Pool :=
  Sys.Pool.run (Sys.Pool.init w₀ : (qrServer hmac).Pool) acts

/-! ## Keys -/

/-- **What a table's code is signed under**: its version, and the secret of its venue. -/
def World.qrKey (w : World) (tableId : Id) : Option (ℕ × Text) :=
  match w.tables.get? tableId with
  | none => none
  | some t => (w.venues.get? t.venueId).map (fun v => (t.qrVersion, v.qrSecret))

/-- The world a request has first read. A scan looks its table up there. -/
def firstRead (v : View api World) : Option World :=
  (v.past.reverse.find? (fun e => e.op.isQuery)).map Event.before

/-- **A scan mints on the key it has checked**: its session is written while the table's
version and the venue's secret are as the scan has read them. -/
def mintsOnKeyRead (v : View api World) (op : Call) (w : World) : Bool :=
  match op with
  | .tableSessionCreate data =>
    (firstRead v).bind (fun u => u.qrKey data.tableId) == w.qrKey data.tableId
  | _ => true

/-- **Nobody is seated between a reset's look at the sessions and its commit**: each
session it would have to revoke was there when it looked. -/
def noneSeatedSince (v : View api World) (op : Call) (w : World) : Bool :=
  match op with
  | .regenerateTransaction id _ =>
    (w.sessionsOfTable id).all (fun k => (v.since.tableSessions.get? k).isSome)
  | .rotateTransaction venueId _ _ =>
    (w.sessionsOfVenue venueId).all (fun k => (v.since.tableSessions.get? k).isSome)
  | _ => true

/-! ## The promise -/

/-- **What every step keeps**: versions only count up; a session stays where it is, and
stays revoked; and when a table's version counts up its sessions are revoked. -/
structure KeysKept (w w' : World) : Prop where
  tables : ∀ id t, w.tables.get? id = some t → ∃ t', w'.tables.get? id = some t'
    ∧ t'.venueId = t.venueId ∧ t.qrVersion ≤ t'.qrVersion
  sessions : ∀ id s, w.tableSessions.get? id = some s → ∃ s', w'.tableSessions.get? id = some s'
    ∧ s'.tableId = s.tableId ∧ s'.venueId = s.venueId
    ∧ (s.revokedAt.isSome = true → s'.revokedAt.isSome = true)
  reset : ∀ id s s' t t', w.tableSessions.get? id = some s → w.tables.get? s.tableId = some t →
    s.venueId = t.venueId → w'.tables.get? s.tableId = some t' → t'.qrVersion ≠ t.qrVersion →
    w'.tableSessions.get? id = some s' → s'.revokedAt.isSome = true

/-- A session is minted by a scan, at the table it has looked up. -/
def MintsLooked (r : QrRequest) (v : View api World) (e : Event api World) : Prop :=
  ∀ data, e.op = .tableSessionCreate data → ∃ caller code sig token u t venue,
    r = .scan caller code sig token ∧ firstRead v = some u
    ∧ u.tableByCode code = some (data.tableId, t, venue) ∧ data.venueId = t.venueId

/-- What the requests promise. -/
abbrev resetProtocol (hmac : Hmac) : Protocol (qrServer hmac) where
  Inv _ := True
  Evolves := KeysKept
  refl w := ⟨fun _ t h => ⟨t, h, rfl, le_refl _⟩, fun _ s h => ⟨s, h, rfl, rfl, fun hr => hr⟩,
    fun _ _ _ _ _ _ ht _ ht' hne _ => absurd (by rw [Option.some.inj (ht'.symm.trans ht)]) hne⟩
  Guard _ v _ op w := mintsOnKeyRead v op w && noneSeatedSince v op w
  Local := MintsLooked

/-- A step that leaves the tables' versions alone. -/
theorem KeysKept.of_versions {w w' : World}
    (ht : ∀ id t, w.tables.get? id = some t → ∃ t', w'.tables.get? id = some t'
      ∧ t'.venueId = t.venueId ∧ t'.qrVersion = t.qrVersion)
    (hs : ∀ id s, w.tableSessions.get? id = some s → ∃ s', w'.tableSessions.get? id = some s'
      ∧ s'.tableId = s.tableId ∧ s'.venueId = s.venueId
      ∧ (s.revokedAt.isSome = true → s'.revokedAt.isSome = true)) : KeysKept w w' where
  tables id t h := by
    obtain ⟨t', h', hvenue, hversion⟩ := ht id t h
    exact ⟨t', h', hvenue, hversion.ge⟩
  sessions := hs
  reset id s s' t t' _ hget _ hget' hne _ := by
    obtain ⟨t'', h'', _, hversion⟩ := ht s.tableId t hget
    rw [hget'] at h''
    cases h''
    exact absurd hversion hne

/-- A step that leaves the tables alone. -/
theorem KeysKept.of_tables {w w' : World} (ht : w'.tables = w.tables)
    (hs : ∀ id s, w.tableSessions.get? id = some s → ∃ s', w'.tableSessions.get? id = some s'
      ∧ s'.tableId = s.tableId ∧ s'.venueId = s.venueId
      ∧ (s.revokedAt.isSome = true → s'.revokedAt.isSome = true)) : KeysKept w w' :=
  KeysKept.of_versions (fun id t h => ⟨t, by rw [ht]; exact h, rfl, rfl⟩) hs

/-- A step that updates sessions where they are, and revokes some. -/
theorem sessions_update {w w' : World} {p : Id → TableSession → Bool}
    {f : TableSession → TableSession} (hw : w'.tableSessions = w.tableSessions.update p f)
    (hf : ∀ s, (f s).tableId = s.tableId ∧ (f s).venueId = s.venueId
      ∧ (s.revokedAt.isSome = true → (f s).revokedAt.isSome = true)) {id : Id} {s : TableSession}
    (hs : w.tableSessions.get? id = some s) :
    ∃ s', w'.tableSessions.get? id = some s' ∧ s'.tableId = s.tableId ∧ s'.venueId = s.venueId
      ∧ (s.revokedAt.isSome = true → s'.revokedAt.isSome = true) := by
  refine ⟨if p id s then f s else s, by rw [hw, Rows.get?_update, hs, Option.map_some], ?_⟩
  split
  · exact hf s
  · exact ⟨rfl, rfl, fun h => h⟩

/-- What revoking keeps of a session. -/
theorem revoke_keeps (now : Time) (s : TableSession) : (revoke now s).tableId = s.tableId
    ∧ (revoke now s).venueId = s.venueId
    ∧ (s.revokedAt.isSome = true → (revoke now s).revokedAt.isSome = true) :=
  ⟨rfl, rfl, fun _ => rfl⟩

/-! ## Calls that leave the keys alone -/

/-- **A call that resets no code and mints no session.** -/
def Call.LeavesKeys : Call → Prop
  | .tableVisitCreate _ _ | .tableVisitDelete _ => True
  | .tableSessionUpdateMany _ data => data = revoke
  | .tableUpdate _ data => ∀ t, (data t).venueId = t.venueId ∧ (data t).qrVersion = t.qrVersion
  | op => op.Harmless

theorem Call.Harmless.leavesKeys {op : Call} (h : op.Harmless) : op.LeavesKeys := by
  cases op <;> first
    | exact h
    | exact h.elim

theorem exec_leavesKeys {c : Choice} {op : Call} (h : op.LeavesKeys) (w : World) :
    KeysKept w (World.exec c op w).1 := by
  have hsame : ∀ w' : World, w'.tables = w.tables → w'.tableSessions = w.tableSessions →
      KeysKept w w' := fun w' ht hs =>
    KeysKept.of_tables ht (fun id s h => ⟨s, by rw [hs]; exact h, rfl, rfl, fun hr => hr⟩)
  cases op with
  | query q => exact hsame _ rfl rfl
  | tableVisitCreate tableId venueId => exact hsame _ rfl rfl
  | orderAttemptCreate row => exact hsame _ rfl rfl
  | publish event => exact hsame _ rfl rfl
  | limiter f => exact hsame _ rfl rfl
  | background job => exact hsame _ rfl rfl
  | tableVisitDelete id =>
    show KeysKept w (w.tableVisitDelete id).1
    unfold World.tableVisitDelete
    split
    · exact hsame _ rfl rfl
    · exact KeysKept.of_tables rfl (fun k s hs => sessions_update
        (p := fun _ s => s.visitId == some id) (f := fun s => { s with visitId := none }) rfl
        (fun s => ⟨rfl, rfl, fun hr => hr⟩) hs)
  | tableSessionUpdate id data =>
    show KeysKept w (w.tableSessionUpdate id data).1
    unfold World.tableSessionUpdate
    split
    · exact hsame _ rfl rfl
    · refine KeysKept.of_tables rfl (fun k s hs => sessions_update (p := fun k _ => k == id)
        (f := data w.now) rfl (fun s => ?_) hs)
      rw [h w.now s]
      exact ⟨rfl, rfl, fun hr => hr⟩
  | tableSessionUpdateMany cond data =>
    obtain rfl : data = revoke := h
    exact KeysKept.of_tables rfl (fun id s hs => sessions_update rfl (revoke_keeps w.now) hs)
  | tableUpdate id data =>
    show KeysKept w (w.tableUpdate id data).1
    unfold World.tableUpdate
    split
    · exact hsame _ rfl rfl
    · refine KeysKept.of_versions (fun k t ht => ?_) (fun k s hs => ⟨s, hs, rfl, rfl, fun hr => hr⟩)
      refine ⟨_, by rw [Rows.get?_updateAt, ht, Option.map_some], ?_⟩
      split
      · exact h t
      · exact ⟨rfl, rfl⟩
  | _ => exact h.elim

/-! ## Calls that change them -/

/-- A session minted is new. -/
theorem tableSessionCreate_keys {w w' : World} {data : NewTableSession} {x : Except DbError Id}
    (hx : w.tableSessionCreate data = (w', x)) : KeysKept w w' := by
  unfold World.tableSessionCreate at hx
  split at hx
  · cases hx
    exact KeysKept.of_tables rfl (fun id s hs => ⟨s, hs, rfl, rfl, fun hr => hr⟩)
  · cases hx
    exact KeysKept.of_tables rfl (fun id s hs =>
      ⟨s, Rows.get?_create_of_some hs, rfl, rfl, fun hr => hr⟩)

/-- A row counted up under a condition is on a later version only where that holds. -/
theorem bumpQr_cases {w u : World} {p : Id → Table → Bool}
    (ht : u.tables = w.tables.update p World.bumpQr) {id : Id} {t : Table}
    (h : w.tables.get? id = some t) :
    ∃ t', u.tables.get? id = some t' ∧ t'.venueId = t.venueId ∧ t.qrVersion ≤ t'.qrVersion
      ∧ (t'.qrVersion ≠ t.qrVersion → p id t = true)
      ∧ (p id t = true → t.qrVersion < t'.qrVersion) := by
  refine ⟨if p id t then World.bumpQr t else t, by rw [ht, Rows.get?_update, h, Option.map_some], ?_⟩
  by_cases hp : p id t = true
  · rw [if_pos hp]
    exact ⟨rfl, Nat.le_succ _, fun _ => hp, fun _ => Nat.lt_succ_self _⟩
  · rw [if_neg hp]
    exact ⟨rfl, le_refl _, fun hne => absurd rfl hne, fun h => absurd h hp⟩

/-- **A reset keeps the promise** when the sessions it revokes are all there are: those
of a table whose version it counts up are revoked. -/
theorem KeysKept.of_reset {w w' : World} {p : Id → Table → Bool} {sessions : List Id}
    (ht : w'.tables = w.tables.update p World.bumpQr)
    (hs : w'.tableSessions = w.tableSessions.update (fun id _ => sessions.contains id) (revoke w.now))
    (hall : ∀ id s t, w.tableSessions.get? id = some s → s.revokedAt = none →
      w.tables.get? s.tableId = some t → s.venueId = t.venueId → p s.tableId t = true →
      sessions.contains id = true) : KeysKept w w' where
  tables id t h := by
    obtain ⟨t', h', hvenue, hle, _⟩ := bumpQr_cases ht h
    exact ⟨t', h', hvenue, hle⟩
  sessions id s h := sessions_update hs (revoke_keeps w.now) h
  reset id s s' t t' hget htable hvenue htable' hne hget' := by
    obtain ⟨t'', h'', _, _, hp, _⟩ := bumpQr_cases ht htable
    rw [htable'] at h''
    cases h''
    rw [hs, Rows.get?_update, hget] at hget'
    obtain rfl := Option.some.inj hget'
    cases hrevoked : s.revokedAt with
    | none =>
      dsimp only
      rw [if_pos (hall id s t hget hrevoked htable hvenue (hp hne))]
      rfl
    | some at₀ =>
      dsimp only
      split
      · rfl
      · rw [hrevoked]
        rfl

theorem mem_sessionsOfTable {w : World} {tableId id : Id} {s : TableSession}
    (h : w.tableSessions.get? id = some s) (ht : s.tableId = tableId) (hr : s.revokedAt = none) :
    id ∈ w.sessionsOfTable tableId := by
  refine List.mem_map.mpr ⟨(id, s), Rows.mem_filter.mpr ⟨h, ?_⟩, rfl⟩
  rw [Bool.and_eq_true, beq_iff_eq, hr]
  exact ⟨ht, rfl⟩

theorem mem_sessionsOfVenue {w : World} {venueId id : Id} {s : TableSession}
    (h : w.tableSessions.get? id = some s) (hv : s.venueId = venueId) (hr : s.revokedAt = none) :
    id ∈ w.sessionsOfVenue venueId := by
  refine List.mem_map.mpr ⟨(id, s), Rows.mem_filter.mpr ⟨h, ?_⟩, rfl⟩
  rw [Bool.and_eq_true, beq_iff_eq, hr]
  exact ⟨hv, rfl⟩

/-- **A session that is not revoked now, and was there, was not revoked there**, at the same
table of the same venue. -/
theorem live_before {u w : World} (h : Relation.ReflTransGen KeysKept u w) {id : Id}
    {s : TableSession} (hs : w.tableSessions.get? id = some s) (hr : s.revokedAt = none)
    (hthere : (u.tableSessions.get? id).isSome = true) :
    ∃ s₀, u.tableSessions.get? id = some s₀ ∧ s.tableId = s₀.tableId ∧ s.venueId = s₀.venueId
      ∧ s₀.revokedAt = none := by
  obtain ⟨s₀, hs₀⟩ := Option.isSome_iff_exists.mp hthere
  have hkept : ∃ s', w.tableSessions.get? id = some s' ∧ s'.tableId = s₀.tableId
      ∧ s'.venueId = s₀.venueId ∧ (s₀.revokedAt.isSome = true → s'.revokedAt.isSome = true) := by
    clear hs hr
    induction h with
    | refl => exact ⟨s₀, hs₀, rfl, rfl, fun hr => hr⟩
    | tail _ hstep ih =>
      obtain ⟨s₁, hs₁, htable, hvenue, hrevoked⟩ := ih
      obtain ⟨s₂, hs₂, htable', hvenue', hrevoked'⟩ := hstep.sessions id s₁ hs₁
      exact ⟨s₂, hs₂, htable'.trans htable, hvenue'.trans hvenue, hrevoked' ∘ hrevoked⟩
  obtain ⟨s', hs', htable, hvenue, hrevoked⟩ := hkept
  obtain rfl : s = s' := Option.some.inj (hs.symm.trans hs')
  refine ⟨s₀, hs₀, htable, hvenue, ?_⟩
  cases hr₀ : s₀.revokedAt with
  | none => rfl
  | some at₀ =>
    rw [hr₀, hr] at hrevoked
    exact absurd (hrevoked rfl) (by decide)

/-- A reset of a table revokes the sessions found in a world `u`: all there are, if nobody
has been seated since. -/
theorem regenerateTransaction_keys {u w w' : World} {tableId : Id} {x : Except DbError Unit}
    (hx : w.regenerateTransaction tableId (u.sessionsOfTable tableId) = (w', x))
    (hrely : Relation.ReflTransGen KeysKept u w)
    (hg : (w.sessionsOfTable tableId).all (fun k => (u.tableSessions.get? k).isSome) = true) :
    KeysKept w w' := by
  unfold World.regenerateTransaction at hx
  split at hx
  · cases hx
    exact KeysKept.of_tables rfl (fun id s hs => ⟨s, hs, rfl, rfl, fun hr => hr⟩)
  · cases hx
    refine KeysKept.of_reset (p := fun k _ => k == tableId) rfl rfl (fun id s t hs hr _ _ hp => ?_)
    have htable : s.tableId = tableId := beq_iff_eq.mp hp
    have hthere := List.all_eq_true.mp hg id (mem_sessionsOfTable hs htable hr)
    obtain ⟨s₀, hs₀, htable₀, _, hr₀⟩ := live_before hrely hs hr hthere
    exact List.contains_iff_mem.mpr
      (mem_sessionsOfTable hs₀ (htable₀.symm.trans htable) hr₀)

/-- And a rotation those of the venue. -/
theorem rotateTransaction_keys {u w w' : World} {venueId : Id} {secret : Text}
    {x : Except DbError ℕ}
    (hx : w.rotateTransaction venueId secret (u.sessionsOfVenue venueId) = (w', x))
    (hrely : Relation.ReflTransGen KeysKept u w)
    (hg : (w.sessionsOfVenue venueId).all (fun k => (u.tableSessions.get? k).isSome) = true) :
    KeysKept w w' := by
  unfold World.rotateTransaction at hx
  split at hx
  · cases hx
    exact KeysKept.of_tables rfl (fun id s hs => ⟨s, hs, rfl, rfl, fun hr => hr⟩)
  · cases hx
    refine KeysKept.of_reset (p := fun _ t => t.venueId == venueId) rfl rfl (fun id s t hs hr _ hv hp => ?_)
    have hvenue : s.venueId = venueId := hv.trans (beq_iff_eq.mp hp)
    have hthere := List.all_eq_true.mp hg id (mem_sessionsOfVenue hs hvenue hr)
    obtain ⟨s₀, hs₀, _, hvenue₀, hr₀⟩ := live_before hrely hs hr hthere
    exact List.contains_iff_mem.mpr
      (mem_sessionsOfVenue hs₀ (hvenue₀.symm.trans hvenue) hr₀)

/-! ## Handlers, call by call -/

/-- What a request has first read, it has first read for good. -/
theorem firstRead_suffix {v v' : View api World} {u : World} (h : v.past <:+ v'.past)
    (hu : firstRead v = some u) : firstRead v' = some u := by
  obtain ⟨later, hlater⟩ := h
  obtain ⟨e, he, rfl⟩ := Option.map_eq_some_iff.mp hu
  unfold firstRead
  rw [← hlater, List.reverse_append, List.find?_append, he]
  rfl

theorem firstRead_mem {v : View api World} {u : World} (h : firstRead v = some u) :
    ∃ e ∈ v.past, e.before = u := by
  obtain ⟨e, he, rfl⟩ := Option.map_eq_some_iff.mp h
  exact ⟨e, List.mem_reverse.mp (List.mem_of_find?_eq_some he), rfl⟩

section

variable {hmac : Hmac} {r : QrRequest} {v : View api World}

theorem guard_mints {c : Choice} {op : Call} {w : World}
    (h : (resetProtocol hmac).Guard r v c op w = true) : mintsOnKeyRead v op w = true :=
  (Bool.and_eq_true_iff.mp h).1

theorem guard_seated {c : Choice} {op : Call} {w : World}
    (h : (resetProtocol hmac).Guard r v c op w = true) : noneSeatedSince v op w = true :=
  (Bool.and_eq_true_iff.mp h).2

theorem takes_leavesKeys {c : Choice} {w : World} (op : Call) (h : op.LeavesKeys) :
    (resetProtocol hmac).Takes r v ⟨op, w, (World.exec c op w).1⟩ := by
  refine ⟨trivial, exec_leavesKeys h w, fun data hop => ?_⟩
  obtain rfl : op = .tableSessionCreate data := hop
  exact h.elim

/-- The rest of a request, when it leaves the keys alone. -/
theorem ok_leavesKeys {α : Type} {B : α → Prop} {p : Api α} (hp : p.Calls Call.LeavesKeys B) :
    (resetProtocol hmac).Ok r (fun _ _ => True) v p :=
  Protocol.ok_mono (Protocol.ok_of_calls hp (fun _ _ _ _ hop _ _ => takes_leavesKeys _ hop))
    (fun _ _ _ => trivial)

theorem logAttempt_leavesKeys (caller : Caller) (outcome : AttemptOutcome) (extra : AttemptInfo) :
    (logAttempt caller outcome extra).Calls Call.LeavesKeys (fun _ => True) :=
  Prog.calls_mono (logAttempt_calls caller outcome extra) (fun _ h => h.leavesKeys) (fun _ h => h)

theorem logFailure_leavesKeys (caller : Caller) (outcome : AttemptOutcome) (extra : AttemptInfo) :
    (logFailure caller outcome extra).Calls Call.LeavesKeys (fun _ => True) := by
  refine Prog.calls_bind (Prog.calls_perform (S := api) trivial) (fun counted _ => ?_)
  split
  · exact logAttempt_leavesKeys caller outcome extra
  · exact trivial

theorem Call.JoinWork.leavesKeys {op : Call} (h : op.JoinWork) : op.LeavesKeys := by
  cases op <;> first
    | exact trivial
    | exact h.elim

/-- **Minting**, at the table the scan has looked up. -/
theorem mintSession_keys {caller : Caller} {code sig : Text} {token : ℕ} {u : World} {tableId : Id}
    {t : Table} {venue : Venue} (hr : r = .scan caller code sig token) (hu : firstRead v = some u)
    (hfound : u.tableByCode code = some (tableId, t, venue)) :
    (resetProtocol hmac).Ok r (fun _ _ => True) v (mintSession tableId t.venueId token) := by
  unfold mintSession
  refine Protocol.ok_calls_bind (openOrJoinVisit_calls tableId t.venueId)
    (fun _ _ _ _ hop _ _ => takes_leavesKeys _ hop.leavesKeys) (fun v₁ visitId _ hpast _ => ?_)
    (fun _ _ _ _ => trivial)
  refine ok_write (fun w c w' x _ _ _ hx => ⟨⟨trivial, tableSessionCreate_keys hx, ?_⟩, ?_⟩)
  · rintro data ⟨⟩
    exact ⟨caller, code, sig, token, u, t, venue, hr, firstRead_suffix hpast hu, hfound, rfl⟩
  cases x with
  | error e => exact trivial
  | ok id =>
    dsimp only [Prog.ofExcept, Prog.ret_bind]
    refine ok_leavesKeys (B := fun _ => True)
      (Prog.calls_bind (Prog.calls_perform (S := api) trivial) (fun active _ => ?_))
    split
    · exact Prog.calls_bind (Prog.calls_perform (S := api) rfl) (fun _ _ => trivial)
    · exact trivial

theorem getScan_keys (w₀ : World) {caller : Caller} {code sig : Text} {token : ℕ}
    (hr : r = .scan caller code sig token) :
    (resetProtocol hmac).Ok r (fun _ _ => True) ⟨w₀, []⟩ (getScan hmac caller code sig token) := by
  unfold getScan
  refine ok_write (fun w c w' x _ _ _ hx => ?_)
  cases hx
  refine ⟨takes_leavesKeys (c := c) (.limiter _) trivial, ?_⟩
  dsimp only [Prog.ofExcept, Prog.ret_bind]
  split
  · split
    · exact ok_leavesKeys (B := fun _ => True)
        (Prog.calls_bind (logAttempt_leavesKeys _ _ _) (fun _ _ => trivial))
    · exact trivial
  · refine ok_write (fun u c' u' x' _ _ _ hx' => ?_)
    cases hx'
    refine ⟨takes_leavesKeys (c := c') (.query _) trivial, ?_⟩
    dsimp only [Prog.ofExcept, Prog.ret_bind]
    split
    · exact ok_leavesKeys (B := fun _ => True)
        (Prog.calls_bind (logFailure_leavesKeys _ _ _) (fun _ _ => trivial))
    · next id t venue hfound =>
      split
      · exact ok_leavesKeys (B := fun _ => True)
          (Prog.calls_bind (logFailure_leavesKeys _ _ _) (fun _ _ => trivial))
      · split
        · exact ok_leavesKeys (B := fun _ => True)
            (Prog.calls_bind (logFailure_leavesKeys _ _ _) (fun _ _ => trivial))
        · refine ok_write (fun w₂ c₂ w₂' x₂ _ _ _ hx₂ => ?_)
          cases hx₂
          refine ⟨takes_leavesKeys (c := c₂) (.limiter _) trivial, ?_⟩
          dsimp only [Prog.ofExcept, Prog.ret_bind]
          split
          · exact ok_leavesKeys (B := fun _ => True)
              (Prog.calls_bind (logAttempt_leavesKeys _ _ _) (fun _ _ => trivial))
          · refine Protocol.ok_bind (Protocol.ok_mono (mintSession_keys hr rfl hfound)
              (fun v' x' _ => ?_))
            cases x' with
            | error e => exact trivial
            | ok minted =>
              exact ok_leavesKeys (B := fun _ => True)
                (Prog.calls_bind (logAttempt_leavesKeys _ _ _) (fun _ _ => trivial))

theorem patchTable_keys (staff : Option StaffClaims) (id : Id) (body : TablePatch) :
    (resetProtocol hmac).Ok r (fun _ _ => True) v (patchTable staff id body) := by
  unfold patchTable
  cases staff with
  | none => exact trivial
  | some staff =>
    refine ok_write (fun w c w' x _ _ _ hx => ?_)
    cases hx
    refine ⟨takes_leavesKeys (c := c) (.query _) trivial, ?_⟩
    dsimp only [Prog.ofExcept, Prog.ret_bind]
    split
    · exact trivial
    · split
      · refine ok_write (fun w₁ c₁ w₁' x₁ _ _ _ hx₁ => ?_)
        cases hx₁
        refine ⟨takes_leavesKeys (c := c₁) (.query _) trivial, ?_⟩
        refine ok_write (fun w₂ c₂ w₂' x₂ _ hrely hg hx₂ => ?_)
        refine ⟨⟨trivial, regenerateTransaction_keys hx₂ hrely (guard_seated hg),
          fun data hop => by cases hop⟩, ?_⟩
        cases x₂ with
        | error e => exact trivial
        | ok _ => exact trivial
      · exact ok_leavesKeys (B := fun _ => True) (Prog.calls_bind
          (Prog.calls_perform (S := api) (fun t => ⟨rfl, rfl⟩)) (fun _ _ => trivial))

theorem rotateQrSecret_keys (venueId : Id) (secret : Text) :
    (resetProtocol hmac).Ok r (fun _ _ => True) v (rotateQrSecret venueId secret) := by
  unfold rotateQrSecret
  refine ok_write (fun w c w' x _ _ _ hx => ?_)
  cases hx
  refine ⟨takes_leavesKeys (c := c) (.query _) trivial, ?_⟩
  refine ok_last (fun w₁ c₁ w₁' x₁ _ hrely hg hx₁ => ⟨⟨trivial,
    rotateTransaction_keys hx₁ hrely (guard_seated hg), fun data hop => by cases hop⟩,
    trivial⟩)

end

theorem resetSound (hmac : Hmac) : (resetProtocol hmac).Sound (fun _ _ _ => True) where
  env e w _ := by
    cases e with
    | tick ms =>
      exact ⟨trivial, KeysKept.of_tables rfl (fun id s hs => ⟨s, hs, rfl, rfl, fun hr => hr⟩)⟩
    | crash => exact ⟨trivial, (resetProtocol hmac).refl w⟩
  entry r w _ := by
    cases r with
    | scan caller code sig token =>
      exact Protocol.ok_map (getScan_keys w rfl)
    | patch staff id body => exact Protocol.ok_map (patchTable_keys staff id body)
    | rotate venueId secret => exact Protocol.ok_map (rotateQrSecret_keys venueId secret)

/-! ## Every run -/

/-- A transaction that resets the table's code. -/
def Call.Resets (w : World) (tableId : Id) : Call → Prop
  | .regenerateTransaction id _ => id = tableId
  | .rotateTransaction venueId _ _ => ∃ t, w.tables.get? tableId = some t ∧ t.venueId = venueId
  | _ => False

/-- **The action commits a reset of the table's code.** -/
def CommitsReset (hmac : Hmac) (tableId : Id) (p : (qrServer hmac).Pool)
    (a : (qrServer hmac).Action) : Prop :=
  ∃ i c t op, a = .step i c ∧ p.threads[i]? = some t ∧ t.prog.next = some op
    ∧ op.Resets p.world tableId ∧ ∃ x, (World.exec c op p.world).2 = .ok x

/-- **The program is a scan that has minted the session** at the table, having checked
its signature against the key. -/
structure MintedOn (r : QrRequest) (v : View api World) (sessionId tableId : Id)
    (key : ℕ × Text) : Prop where
  checked : ∃ caller code sig token u table venue, r = .scan caller code sig token
    ∧ firstRead v = some u ∧ u.tableByCode code = some (tableId, table, venue)
    ∧ key = (table.qrVersion, venue.qrSecret)
  minted : ∃ e ∈ v.past, ∃ data, e.op = .tableSessionCreate data
    ∧ e.before.tableSessions.next = sessionId ∧ (e.after.tableSessions.get? sessionId).isSome = true

/-- The session is revoked, or its table is on the version still. -/
def OnVersion (sessionId tableId : Id) (version : ℕ) (w : World) : Prop :=
  ∃ s t, w.tableSessions.get? sessionId = some s ∧ w.tables.get? tableId = some t
    ∧ s.tableId = tableId ∧ s.venueId = t.venueId
    ∧ (s.revokedAt.isSome = true ∨ t.qrVersion = version)

section

variable {hmac : Hmac} {w w' : World} {tableId sessionId : Id} {key : ℕ × Text}

theorem tableByCode_spec {code : Text} {table : Table} {venue : Venue}
    (h : w.tableByCode code = some (tableId, table, venue)) :
    w.tables.get? tableId = some table ∧ w.venues.get? table.venueId = some venue := by
  unfold World.tableByCode at h
  split at h
  · cases h
  · next id t hfind =>
    obtain ⟨v, hv, heq⟩ := Option.map_eq_some_iff.mp h
    cases heq
    exact ⟨(Rows.find?_eq_some hfind).1, hv⟩

theorem qrKey_spec (h : w.qrKey tableId = some key) :
    ∃ t, w.tables.get? tableId = some t ∧ t.qrVersion = key.1 := by
  unfold World.qrKey at h
  split at h
  · cases h
  · next t ht =>
    obtain ⟨v, _, rfl⟩ := Option.map_eq_some_iff.mp h
    exact ⟨t, ht, rfl⟩

theorem tables_rely (h : (resetProtocol hmac).Rely w w') {t : Table}
    (ht : w.tables.get? tableId = some t) : ∃ t', w'.tables.get? tableId = some t'
      ∧ t'.venueId = t.venueId ∧ t.qrVersion ≤ t'.qrVersion := by
  refine h.stable (D := fun u : World => ∃ t', u.tables.get? tableId = some t' ∧ t'.venueId = t.venueId
    ∧ t.qrVersion ≤ t'.qrVersion) (fun u u' hstep hu => ?_) ⟨t, ht, rfl, le_refl _⟩
  obtain ⟨t₁, ht₁, hvenue₁, hle₁⟩ := hu
  obtain ⟨t₂, ht₂, hvenue₂, hle₂⟩ := hstep.tables tableId t₁ ht₁
  exact ⟨t₂, ht₂, hvenue₂.trans hvenue₁, hle₁.trans hle₂⟩

/-- **A session outlives no other version than its own**, in one step. -/
theorem OnVersion.step {version : ℕ} (hstep : KeysKept w w') (h : OnVersion sessionId tableId version w) :
    OnVersion sessionId tableId version w' := by
  obtain ⟨s, t, hs, ht, htable, hvenue, hor⟩ := h
  obtain ⟨s', hs', htable', hvenue', hrevoked⟩ := hstep.sessions sessionId s hs
  obtain ⟨t', ht', htv, _⟩ := hstep.tables tableId t ht
  refine ⟨s', t', hs', ht', htable'.trans htable, by rw [hvenue', hvenue, htv], ?_⟩
  rcases hor with hr | hversion
  · exact .inl (hrevoked hr)
  · by_cases hsame : t'.qrVersion = t.qrVersion
    · exact .inr (hsame.trans hversion)
    · subst htable
      exact .inl (hstep.reset sessionId s s' t t' hs ht hvenue ht' hsame hs')

/-- A session just minted is on the version the table is on. -/
theorem OnVersion.minted {data : NewTableSession} {t : Table}
    (hminted : ((w.tableSessionCreate data).1.tableSessions.get? w.tableSessions.next).isSome = true)
    (ht : w.tables.get? data.tableId = some t) (hvenue : data.venueId = t.venueId) :
    OnVersion w.tableSessions.next data.tableId t.qrVersion (w.tableSessionCreate data).1 := by
  unfold World.tableSessionCreate at hminted ⊢
  split at hminted
  · obtain ⟨s, hs⟩ := Option.isSome_iff_exists.mp hminted
    exact absurd (Rows.lt_next_of_get? hs) (Nat.lt_irrefl _)
  · next hvisit =>
    rw [if_neg hvisit]
    exact ⟨_, t, Rows.get?_create_next _ _, ht, rfl, hvenue, .inr rfl⟩

/-- **A reset counts the version up.** -/
theorem CommitsReset.bumps {p : (qrServer hmac).Pool} {a : (qrServer hmac).Action}
    (h : CommitsReset hmac tableId p a) {t : Table} (ht : p.world.tables.get? tableId = some t) :
    ∃ t', (p.act a).world.tables.get? tableId = some t' ∧ t.qrVersion < t'.qrVersion := by
  obtain ⟨i, c, th, op, rfl, hth, hnext, hresets, x, hx⟩ := h
  have hworld : (p.act (.step i c)).world = (World.exec c op p.world).1 := by
    cases hprog : th.prog with
    | ret a => rw [hprog] at hnext; cases hnext
    | raise e => rw [hprog] at hnext; cases hnext
    | call op' k =>
      rw [hprog] at hnext
      obtain rfl : op' = op := Option.some.inj hnext
      show (p.step i c).world = _
      rw [Sys.Pool.step_of_call hth hprog]
      rfl
  rw [hworld]
  cases op with
  | regenerateTransaction id sessions =>
    obtain rfl : id = tableId := hresets
    show ∃ t', (p.world.regenerateTransaction id sessions).1.tables.get? id = some t' ∧ _
    unfold World.regenerateTransaction
    rw [ht]
    obtain ⟨t', ht', _, _, _, hlt⟩ := bumpQr_cases (p := fun k _ => k == id)
      (u := { p.world with tables := p.world.tables.updateAt id World.bumpQr }) rfl ht
    exact ⟨t', ht', hlt (beq_self_eq_true id)⟩
  | rotateTransaction venueId secret sessions =>
    obtain ⟨t₀, ht₀, hvenue⟩ := hresets
    obtain rfl : t₀ = t := Option.some.inj (ht₀.symm.trans ht)
    replace hx : (p.world.rotateTransaction venueId secret sessions).2 = .ok x := hx
    show ∃ t', (p.world.rotateTransaction venueId secret sessions).1.tables.get? tableId = some t' ∧ _
    unfold World.rotateTransaction at hx ⊢
    split at hx
    · cases hx
    · next v hv =>
      obtain ⟨t', ht', _, _, _, hlt⟩ := bumpQr_cases (p := fun _ t => t.venueId == venueId)
        (u := { p.world with
          tables := p.world.tables.update (fun _ t => t.venueId == venueId) World.bumpQr }) rfl ht
      exact ⟨t', ht', hlt (beq_iff_eq.mpr hvenue)⟩
  | _ => exact hresets.elim

end

/-- **A session a scan has minted is on the version it was checked against**, or is
revoked. -/
theorem MintedOn.onVersion {hmac : Hmac} {w₀ : World} {acts : List (qrServer hmac).Action}
    (hm : Sys.Pool.Meets (resetProtocol hmac).cond (Sys.Pool.init w₀) acts = true)
    {t : (qrServer hmac).Thread} (ht : t ∈ (qrRun hmac w₀ acts).threads) {sessionId tableId : Id}
    {key : ℕ × Text} (h : MintedOn t.req t.view sessionId tableId key) :
    OnVersion sessionId tableId key.1 (qrRun hmac w₀ acts).world := by
  obtain ⟨caller, code, sig, token, u, table, venue, hreq, hu, hfound, rfl⟩ := h.checked
  obtain ⟨e, he, data, hop, hnext, hminted⟩ := h.minted
  obtain ⟨i, hi⟩ := List.mem_iff_getElem?.mp ht
  obtain ⟨pre, c, post, rfl, hcalled⟩ := Sys.Pool.called hi he
  obtain ⟨t₀, k, ht₀, hreq₀, hk, hpast⟩ := hcalled.waiting
  have ht₀m := List.mem_of_getElem? ht₀
  obtain ⟨hpre, hrest⟩ := Sys.Pool.meets_append.mp hm
  have hok := (resetSound hmac).run trivial hpre
  have hg := (resetProtocol hmac).cond_step ht₀ hk (Sys.Pool.meets_cons.mp hrest).1
  -- the scan mints at the table it has looked up, while the key is as it was
  obtain ⟨_, code', _, _, u', t', venue', hreq', hu', hfound', hvenue⟩ :=
    (hok.answer ht₀ hk hg).1.here data hop
  rw [hreq₀, hreq] at hreq'
  obtain rfl : code = code' := by cases hreq'; rfl
  obtain rfl : u = u' :=
    Option.some.inj (hu.symm.trans (firstRead_suffix ((List.suffix_cons _ _).trans hpast) hu'))
  rw [hfound] at hfound'
  obtain ⟨rfl, rfl, rfl⟩ : tableId = data.tableId ∧ table = t' ∧ venue = venue' := by
    cases hfound'
    exact ⟨rfl, rfl, rfl⟩
  obtain ⟨htable, hvenueRow⟩ := tableByCode_spec hfound
  have hkey : (qrRun hmac w₀ pre).world.qrKey data.tableId
      = some (table.qrVersion, venue.qrSecret) := by
    have hguard := guard_mints hg
    rw [hop] at hguard
    replace hguard : ((firstRead t₀.view).bind (fun u => u.qrKey data.tableId)
      == (qrRun hmac w₀ pre).world.qrKey data.tableId) = true := hguard
    rw [hu', Option.bind_some, beq_iff_eq] at hguard
    rw [← hguard]
    unfold World.qrKey
    rw [htable]
    dsimp only
    rw [hvenueRow]
    rfl
  obtain ⟨t₁, ht₁, hversion⟩ := qrKey_spec hkey
  -- the table is in the venue it was in
  have hvenue₁ : t₁.venueId = table.venueId := by
    obtain ⟨e₀, he₀, rfl⟩ := firstRead_mem hu'
    have hmade := hok.made t₀ ht₀m e₀ he₀
    obtain ⟨t₂, ht₂, hvenue₂, _⟩ := tables_rely
      ((Protocol.Rely.single hmade.evolves).trans' hmade.led) htable
    obtain rfl : t₁ = t₂ := Option.some.inj (ht₁.symm.trans ht₂)
    exact hvenue₂
  -- and from there on the session stays on that version
  have hafter : e.after = ((qrRun hmac w₀ pre).world.tableSessionCreate data).1 := by
    rw [hcalled.answered, hcalled.before, hop]
    rfl
  have hmint : OnVersion sessionId data.tableId t₁.qrVersion e.after := by
    rw [hafter] at hminted ⊢
    rw [hcalled.before] at hnext
    subst hnext
    exact OnVersion.minted hminted ht₁ (hvenue.trans hvenue₁.symm)
  rw [hversion, hcalled.after] at hmint
  have hsplit : pre ++ .step i c :: post = (pre ++ [.step i c]) ++ post := by
    rw [List.append_assoc]
    rfl
  rw [hsplit] at hm ⊢
  exact ((resetSound hmac).run_rely trivial hm).stable (fun _ _ hstep h => h.step hstep) hmint

/-- **A reset is total.** In every run in which each scan mints while the key is as it
has read it, and nobody is seated between a reset's look at the sessions and its commit, a
session minted on a key that was in force before a reset is revoked after it, whenever it
was minted. -/
theorem reset_total (hmac : Hmac) (w₀ : World) (pre post : List (qrServer hmac).Action)
    (a : (qrServer hmac).Action) (tableId : Id)
    (hm : Sys.Pool.Meets (resetProtocol hmac).cond (Sys.Pool.init w₀) (pre ++ a :: post) = true)
    (hreset : CommitsReset hmac tableId (qrRun hmac w₀ pre) a)
    (t : (qrServer hmac).Thread) (ht : t ∈ (qrRun hmac w₀ (pre ++ a :: post)).threads)
    (sessionId : Id) (key : ℕ × Text) (hminted : MintedOn t.req t.view sessionId tableId key)
    (hold : ∃ early rest, pre = early ++ rest
      ∧ (qrRun hmac w₀ early).world.qrKey tableId = some key) :
    ∃ s, (qrRun hmac w₀ (pre ++ a :: post)).world.tableSessions.get? sessionId = some s
      ∧ s.revokedAt.isSome = true := by
  obtain ⟨s, t', hs, ht', _, _, hor⟩ := hminted.onVersion hm ht
  refine ⟨s, hs, hor.resolve_right (fun hsame => ?_)⟩
  -- the table has left the version
  obtain ⟨early, rest, rfl, hkey⟩ := hold
  obtain ⟨t₀, ht₀, hversion⟩ := qrKey_spec hkey
  obtain ⟨t₁, ht₁, _, hle₁⟩ := tables_rely
    ((resetSound hmac).run_rely trivial (Sys.Pool.meets_append.mp hm).1) ht₀
  obtain ⟨t₂, ht₂, hlt⟩ := hreset.bumps ht₁
  rw [← Sys.Pool.run_concat] at ht₂
  have hsplit : (early ++ rest) ++ a :: post = (early ++ rest ++ [a]) ++ post := by
    rw [List.append_assoc (early ++ rest)]
    rfl
  rw [hsplit] at hm ht'
  obtain ⟨t₃, ht₃, _, hle₃⟩ := tables_rely ((resetSound hmac).run_rely trivial hm) ht₂
  obtain rfl : t' = t₃ := Option.some.inj (ht'.symm.trans ht₃)
  omega

/-! ### A scan on the way to its session -/

/-- A table of one venue, with a party at it. -/
def oneTable : World :=
  { World.blank 0 with
    venues := Rows.ofList [⟨[], [], [7], none⟩]
    tables := Rows.ofList [⟨0, [9], [], 0, true⟩]
    tableVisits := Rows.ofList
      [⟨0, 0, .opened, 0, none, none, none, none, none, none, none⟩] }

/-- A digest by which secrets and messages are told apart. -/
def joined : Hmac := fun secret message => secret ++ message

/-- A phone scans the code as it is printed. -/
def printedCode : QrRequest := .scan ⟨[], []⟩ [9] (signTableQr joined [7] [9] 0) 5

/-- The manager resets it. -/
def regenerate : QrRequest := .patch (some ⟨0, 0, []⟩) 0 ⟨true, none, none⟩

/-- The scan has checked the code; the reset has looked for sessions. -/
def checkedBefore : List (qrServer joined).Action :=
  [.arrive printedCode] ++ List.replicate 3 (.step 0 plain) ++ [.arrive regenerate]
    ++ List.replicate 2 (.step 1 plain)

/-- **A session can outlive the reset of its code.** -/
theorem reset_total_fails :
    ¬ ∀ (hmac : Hmac) (w₀ : World) (pre post : List (qrServer hmac).Action)
      (a : (qrServer hmac).Action) (tableId : Id),
      CommitsReset hmac tableId (qrRun hmac w₀ pre) a →
      ∀ t ∈ (qrRun hmac w₀ (pre ++ a :: post)).threads, ∀ (sessionId : Id) (key : ℕ × Text),
      MintedOn t.req t.view sessionId tableId key →
      (∃ early rest, pre = early ++ rest
        ∧ (qrRun hmac w₀ early).world.qrKey tableId = some key) →
      ∃ s, (qrRun hmac w₀ (pre ++ a :: post)).world.tableSessions.get? sessionId = some s
        ∧ s.revokedAt.isSome = true := by
  intro h
  have hreset : CommitsReset joined 0 (qrRun joined oneTable checkedBefore) (.step 1 plain) :=
    ⟨1, plain, _, _, rfl, rfl, rfl, rfl, (), rfl⟩
  obtain ⟨s, hs, hrevoked⟩ := h joined oneTable checkedBefore (List.replicate 2 (.step 0 plain))
    (.step 1 plain) 0 hreset _ List.mem_cons_self 0 (0, [7])
    ⟨⟨_, _, _, _, _, _, _, rfl, rfl, rfl, rfl⟩, ⟨_, List.mem_cons_self, _, rfl, rfl, rfl⟩⟩
    ⟨[], _, rfl, rfl⟩
  have hlive : ((qrRun joined oneTable (checkedBefore ++ .step 1 plain
      :: List.replicate 2 (.step 0 plain))).world.tableSessions.get? 0).map TableSession.revokedAt
      = some none := by decide
  rw [hs] at hlive
  rw [Option.some.inj hlive] at hrevoked
  cases hrevoked

/-- The scan has minted; the reset has looked for sessions. -/
def mintedBefore : List (qrServer joined).Action :=
  [.arrive printedCode] ++ List.replicate 5 (.step 0 plain) ++ [.arrive regenerate]
    ++ List.replicate 2 (.step 1 plain)

/-- A session that is there before the reset is revoked with it. -/
theorem reset_total_scanned :
    ∃ s, (qrRun joined oneTable (mintedBefore ++ .step 1 plain
      :: List.replicate 2 (.step 0 plain))).world.tableSessions.get? 0 = some s
      ∧ s.revokedAt.isSome = true := by
  have hreset : CommitsReset joined 0 (qrRun joined oneTable mintedBefore) (.step 1 plain) :=
    ⟨1, plain, _, _, rfl, rfl, rfl, rfl, (), rfl⟩
  exact reset_total joined oneTable mintedBefore (List.replicate 2 (.step 0 plain)) (.step 1 plain) 0
    (by decide) hreset _ List.mem_cons_self 0 (0, [7])
    ⟨⟨_, _, _, _, _, _, _, rfl, rfl, rfl, rfl⟩,
      ⟨_, List.mem_cons_of_mem _ (List.mem_cons_of_mem _ List.mem_cons_self), _, rfl, rfl, rfl⟩⟩
    ⟨[], _, rfl, rfl⟩

end Masadan
