import Mathlib.Data.List.Infix
import Masadan.QrReset

/-!
# Old codes stay dead

What is printed on a table is a digest of its code and its version under the secret of the
venue. A reset of the table counts the version up, and so does, for every table of the venue,
a change of the secret; the code a table got when it was created it keeps. So as long as the
digests of one run tell what they were made of apart, a print opens its own table, and that
as long as neither version nor secret has changed, and nothing else (`old_codes_dead`).

What a scan brings is any text. Its bytes are compared with those of the digest by a function
that throws on buffers of different lengths, and never sees any (`verifyTableQrBytes_total`).
-/

open Relation

namespace Masadan

/-! ## The comparison -/

section

variable (hmac : Hmac) (qrSecret tableCode : Text) (qrVersion : ℕ) (sig : Text)

/-- **No text makes the comparison throw.** -/
theorem verifyTableQrBytes_total :
    ∃ b, verifyTableQrBytes hmac qrSecret tableCode qrVersion sig = .ok b := by
  unfold verifyTableQrBytes
  dsimp only
  split
  · exact ⟨false, rfl⟩
  · next hlength =>
    unfold timingSafeEqual
    rw [if_neg hlength]
    exact ⟨_, rfl⟩

variable {hmac}

/-- A slice of a digest is below 128 with it. -/
theorem signTableQr_ascii (hascii : ∀ secret message, Utf8.Ascii (hmac secret message)) :
    Utf8.Ascii (signTableQr hmac qrSecret tableCode qrVersion) :=
  fun u hu => hascii qrSecret _ u (List.mem_of_mem_take hu)

/-- **The bytes agree where the texts do.** -/
theorem verifyTableQrBytes_eq (hascii : ∀ secret message, Utf8.Ascii (hmac secret message)) :
    verifyTableQrBytes hmac qrSecret tableCode qrVersion sig
      = .ok (verifyTableQr hmac qrSecret tableCode qrVersion sig) := by
  have hsame : (Utf8.utf8 sig = Utf8.utf8 (signTableQr hmac qrSecret tableCode qrVersion))
      ↔ sig = signTableQr hmac qrSecret tableCode qrVersion :=
    ⟨Utf8.utf8_injective (signTableQr_ascii _ _ _ hascii), fun h => by rw [h]⟩
  unfold verifyTableQrBytes verifyTableQr
  dsimp only
  split
  · next hlength =>
    have hne : sig ≠ signTableQr hmac qrSecret tableCode qrVersion := by
      intro h
      rw [h] at hlength
      exact hlength rfl
    rw [beq_false_of_ne hne]
  · next hlength =>
    unfold timingSafeEqual
    rw [if_neg hlength]
    refine congrArg Except.ok ?_
    rw [Bool.eq_iff_iff, beq_iff_eq, beq_iff_eq]
    exact hsame

end

/-! ## What is signed -/

/-- A number is written in digits. -/
theorem text_repr (n : ℕ) :
    text (Nat.repr n) = (Nat.toDigits 10 n).map (fun c => c.toNat.toUInt16) := by
  unfold text
  rw [Nat.toList_repr, ← List.flatMap_singleton' (List.map _ _), List.flatMap_map]
  refine List.flatMap_congr (fun c hc => ?_)
  have hdigit := Char.isDigit_iff_toNat.mp (Nat.isDigit_of_mem_toDigits (by decide) (by decide) hc)
  have hnine : '9'.toNat = 57 := rfl
  exact if_pos (by omega)

/-- And read back. -/
theorem digits_of_text (n : ℕ) :
    (text (Nat.repr n)).map (fun u => Char.ofNat u.toNat) = Nat.toDigits 10 n := by
  rw [text_repr, List.map_map]
  refine (List.map_congr_left (fun c hc => ?_)).trans (List.map_id _)
  have hdigit := Char.isDigit_iff_toNat.mp (Nat.isDigit_of_mem_toDigits (by decide) (by decide) hc)
  have hnine : '9'.toNat = 57 := rfl
  show Char.ofNat c.toNat.toUInt16.toNat = c
  rw [Nat.toUInt16_eq, UInt16.toNat_ofNat', Nat.mod_eq_of_lt (by omega), Char.ofNat_toNat]

/-- No digit is a colon. -/
theorem colon_not_digit (n : ℕ) : (58 : UInt16) ∉ text (Nat.repr n) := by
  intro hmem
  have hcolon : ':' ∈ Nat.toDigits 10 n := by
    rw [← digits_of_text]
    exact List.mem_map.mpr ⟨58, hmem, rfl⟩
  exact absurd (Nat.isDigit_of_mem_toDigits (by decide) (by decide) hcolon) (by decide)

/-- Two lists that end in the same place after one element. -/
theorem append_last {α : Type} {x : α} {as as' bs bs' : List α}
    (h : as ++ x :: bs = as' ++ x :: bs') (hbs : x ∉ bs) (hbs' : x ∉ bs') : as = as' ∧ bs = bs' := by
  rcases List.append_eq_append_iff.mp h with ⟨cs, rfl, hcs⟩ | ⟨cs, rfl, hcs⟩
  · cases cs with
    | nil => exact ⟨(List.append_nil _).symm, (List.cons.inj hcs).2⟩
    | cons c cs =>
      refine absurd ?_ hbs
      rw [(List.cons.inj hcs).2]
      exact List.mem_append_right _ List.mem_cons_self
  · cases cs with
    | nil => exact ⟨List.append_nil _, (List.cons.inj hcs).2.symm⟩
    | cons c cs =>
      refine absurd ?_ hbs'
      rw [(List.cons.inj hcs).2]
      exact List.mem_append_right _ List.mem_cons_self

/-- **A message is of one code and one version**, whatever is in the code. -/
theorem qrMessage_injective {code code' : Text} {version version' : ℕ}
    (h : qrMessage code version = qrMessage code' version') : code = code' ∧ version = version' := by
  have hcolon : text ":" = [58] := rfl
  unfold qrMessage at h
  rw [hcolon, List.append_assoc, List.append_assoc, List.singleton_append, List.singleton_append] at h
  obtain ⟨hcode, hversion⟩ := append_last h (colon_not_digit version) (colon_not_digit version')
  have hdigits := congrArg (List.map (fun u : UInt16 => Char.ofNat u.toNat)) hversion
  rw [digits_of_text, digits_of_text] at hdigits
  refine ⟨hcode, ?_⟩
  rw [← Nat.ofDigitChars_ten_toDigits (n := version), hdigits, Nat.ofDigitChars_ten_toDigits]

/-! ## The server -/

inductive CodeRequest where
  /-- The code drawn for the table comes with the request. -/
  | create (staff : Option StaffClaims) (name : Option Text) (code : Text)
  | qr (r : QrRequest)

inductive CodeAnswer where
  | created (a : NewTableAnswer)
  | qr (a : QrAnswer)

def CodeRequest.prog (hmac : Hmac) : CodeRequest → Api CodeAnswer
  | .create staff name code => CodeAnswer.created <$> createTable staff name code
  | .qr r => CodeAnswer.qr <$> r.prog hmac

/-- The server serving these requests; its calls may fail, and it may crash. -/
abbrev codeServer (hmac : Hmac) : Sys api :=
  server (CodeRequest.prog hmac) (fun _ => true) (fun _ => []) true

/-- A run of these requests, from a world. -/
abbrev codeRun (hmac : Hmac) (w₀ : World) (acts : List (codeServer hmac).Action) :
    (codeServer hmac).Pool :=
  Sys.Pool.run (Sys.Pool.init w₀ : (codeServer hmac).Pool) acts

/-- **What the scan's check says** of a signature under a code. -/
def World.acceptsCode (hmac : Hmac) (w : World) (code sig : Text) : Except LengthError Bool :=
  match w.tableByCode code with
  | none => .ok false
  | some (_, table, venue) =>
    verifyTableQrBytes hmac venue.qrSecret table.code table.qrVersion sig

/-! ## What every step keeps -/

/-- Two tables do not share a code. -/
def World.CodesUnique (w : World) : Prop :=
  ∀ id id' t t', w.tables.get? id = some t → w.tables.get? id' = some t' → t.code = t'.code → id = id'

/-- The secret of a venue. -/
def World.secretOf (w : World) (venueId : Id) : Option Text :=
  (w.venues.get? venueId).map (fun v => v.qrSecret)

/-- **A table keeps its code, versions only count up, and a secret changes only with the
versions** of its venue's tables. -/
structure CodesKept (w w' : World) : Prop where
  tables : ∀ id t, w.tables.get? id = some t → ∃ t', w'.tables.get? id = some t'
    ∧ t'.venueId = t.venueId ∧ t'.code = t.code ∧ t.qrVersion ≤ t'.qrVersion
    ∧ (t'.qrVersion = t.qrVersion → w'.secretOf t.venueId = w.secretOf t.venueId)

theorem CodesKept.of_eq {w w' : World} (ht : w'.tables = w.tables) (hv : w'.venues = w.venues) :
    CodesKept w w' where
  tables id t h := by
    refine ⟨t, by rw [ht]; exact h, rfl, rfl, le_rfl, fun _ => ?_⟩
    unfold World.secretOf
    rw [hv]

theorem CodesKept.refl (w : World) : CodesKept w w := .of_eq rfl rfl

theorem CodesKept.trans {w w' w'' : World} (h : CodesKept w w') (h' : CodesKept w' w'') :
    CodesKept w w'' where
  tables id t ht := by
    obtain ⟨t', ht', hvenue, hcode, hle, hsecret⟩ := h.tables id t ht
    obtain ⟨t'', ht'', hvenue', hcode', hle', hsecret'⟩ := h'.tables id t' ht'
    refine ⟨t'', ht'', hvenue'.trans hvenue, hcode'.trans hcode, hle.trans hle', fun hversion => ?_⟩
    -- a version that has come back has never been away
    have hmid : t'.qrVersion = t.qrVersion := Nat.le_antisymm (hversion ▸ hle') hle
    rw [hvenue] at hsecret'
    exact (hsecret' (hversion.trans hmid.symm)).trans (hsecret hmid)

/-- What the requests promise. -/
abbrev codeProtocol (hmac : Hmac) : Protocol (codeServer hmac) where
  Inv := World.CodesUnique
  Evolves := CodesKept
  refl := CodesKept.refl

/-- The calls of these requests. -/
def Call.CodeWork : Call → Prop
  | .tableCreate _ | .regenerateTransaction _ _ | .rotateTransaction _ _ _ => True
  | .tableUpdate _ data => ∀ t, (data t).venueId = t.venueId ∧ (data t).code = t.code
      ∧ (data t).qrVersion = t.qrVersion
  | op => op.ScanWork

theorem Call.ScanWork.codeWork {op : Call} (h : op.ScanWork) : op.CodeWork := by
  cases op <;> first
    | exact h
    | exact h.elim

/-- A scan's calls leave tables and venues alone. -/
theorem exec_scanWork {c : Choice} {op : Call} (h : op.ScanWork) (w : World) :
    (World.exec c op w).1.tables = w.tables ∧ (World.exec c op w).1.venues = w.venues := by
  have hharmless : op.Harmless →
      (World.exec c op w).1.tables = w.tables ∧ (World.exec c op w).1.venues = w.venues :=
    fun h => ⟨(exec_harmless h w).tables, (exec_harmless h w).venues⟩
  cases op with
  | tableVisitCreate tableId venueId => exact ⟨rfl, rfl⟩
  | tableVisitDelete id =>
    dsimp only [World.exec]
    unfold World.tableVisitDelete
    split
    · exact ⟨rfl, rfl⟩
    · exact ⟨rfl, rfl⟩
  | tableSessionCreate data =>
    dsimp only [World.exec]
    unfold World.tableSessionCreate
    split
    · exact ⟨rfl, rfl⟩
    · exact ⟨rfl, rfl⟩
  | tableSessionUpdateMany cond data => exact ⟨rfl, rfl⟩
  | _ => exact hharmless h

section

variable {w w' : World}

/-- A change of tables, each to one with the same code. -/
theorem codesUnique_map {f : Id → Table → Table}
    (ht : ∀ id, w'.tables.get? id = (w.tables.get? id).map (f id))
    (hcode : ∀ id t, (f id t).code = t.code) (h : w.CodesUnique) : w'.CodesUnique := by
  intro id id' t t' hget hget' hsame
  rw [ht] at hget hget'
  obtain ⟨u, hu, rfl⟩ := Option.map_eq_some_iff.mp hget
  obtain ⟨u', hu', rfl⟩ := Option.map_eq_some_iff.mp hget'
  rw [hcode, hcode] at hsame
  exact h id id' u u' hu hu' hsame

/-- Where some tables are reset, and the secrets of others are as they were. -/
theorem codesKept_reset {p : Id → Table → Bool}
    (ht : w'.tables = w.tables.update p World.bumpQr)
    (hv : ∀ id t, w.tables.get? id = some t → p id t = false →
      w'.secretOf t.venueId = w.secretOf t.venueId) (h : w.CodesUnique) :
    w'.CodesUnique ∧ CodesKept w w' := by
  have hget : ∀ id, w'.tables.get? id
      = (w.tables.get? id).map (fun t => if p id t then World.bumpQr t else t) := by
    intro id
    rw [ht, Rows.get?_update]
  refine ⟨codesUnique_map hget (fun id t => ?_) h, ⟨fun id t hid => ?_⟩⟩
  · split
    · rfl
    · rfl
  · rw [hget, hid, Option.map_some]
    refine ⟨_, rfl, ?_⟩
    by_cases hp : p id t = true
    · rw [if_pos hp]
      exact ⟨rfl, rfl, Nat.le_succ _, fun hversion => absurd hversion (Nat.succ_ne_self _)⟩
    · rw [if_neg hp]
      exact ⟨rfl, rfl, le_rfl, fun _ => hv id t hid (Bool.eq_false_iff.mpr hp)⟩

theorem tableCreate_codes {data : NewTable} (h : w.CodesUnique) :
    (w.tableCreate data).1.CodesUnique ∧ CodesKept w (w.tableCreate data).1 := by
  unfold World.tableCreate
  split
  · exact ⟨h, .refl w⟩
  · next hcode =>
    split
    · exact ⟨h, .refl w⟩
    · -- nobody has the code
      have hfree : ∀ id t, w.tables.get? id = some t → t.code ≠ data.code := by
        intro id t hid hsame
        rw [Bool.not_eq_true, Option.isSome_eq_false_iff, Option.isNone_iff_eq_none] at hcode
        have hnot := Rows.find?_eq_none hcode hid
        rw [hsame, beq_self_eq_true] at hnot
        cases hnot
      refine ⟨fun id id' t t' hid hid' hsame => ?_, ⟨fun id t hid => ?_⟩⟩
      · dsimp only at hid hid'
        rw [Rows.get?_create] at hid hid'
        split at hid
        · next hnew =>
          split at hid'
          · next hnew' => exact hnew.trans hnew'.symm
          · cases hid
            exact absurd hsame.symm (hfree id' t' hid')
        · split at hid'
          · cases hid'
            exact absurd hsame (hfree id t hid)
          · exact h id id' t t' hid hid' hsame
      · exact ⟨t, Rows.get?_create_of_some hid, rfl, rfl, le_rfl, fun _ => rfl⟩

theorem tableUpdate_codes {id : Id} {data : Table → Table}
    (hdata : ∀ t, (data t).venueId = t.venueId ∧ (data t).code = t.code
      ∧ (data t).qrVersion = t.qrVersion) (h : w.CodesUnique) :
    (w.tableUpdate id data).1.CodesUnique ∧ CodesKept w (w.tableUpdate id data).1 := by
  unfold World.tableUpdate
  split
  · exact ⟨h, .refl w⟩
  · have hkeeps : ∀ k t, (if k = id then data t else t).venueId = t.venueId
        ∧ (if k = id then data t else t).code = t.code
        ∧ (if k = id then data t else t).qrVersion = t.qrVersion := by
      intro k t
      split
      · exact hdata t
      · exact ⟨rfl, rfl, rfl⟩
    have hget : ∀ k, (w.tables.updateAt id data).get? k
        = (w.tables.get? k).map (fun t => if k = id then data t else t) := by
      intro k
      rw [Rows.get?_updateAt]
    refine ⟨codesUnique_map hget (fun k t => (hkeeps k t).2.1) h, ⟨fun k t hk => ?_⟩⟩
    obtain ⟨hvenue, hcode, hversion⟩ := hkeeps k t
    refine ⟨_, (hget k).trans (by rw [hk, Option.map_some]), hvenue, hcode, hversion.ge, fun _ => rfl⟩

/-- **Every call keeps the promise.** -/
theorem exec_codeWork {c : Choice} {op : Call} (hop : op.CodeWork) (h : w.CodesUnique) :
    (World.exec c op w).1.CodesUnique ∧ CodesKept w (World.exec c op w).1 := by
  have hscan : op.ScanWork →
      (World.exec c op w).1.CodesUnique ∧ CodesKept w (World.exec c op w).1 := by
    intro hop
    obtain ⟨ht, hv⟩ := exec_scanWork (c := c) hop w
    refine ⟨?_, .of_eq ht hv⟩
    unfold World.CodesUnique
    rw [ht]
    exact h
  cases op with
  | tableCreate data => exact tableCreate_codes h
  | tableUpdate id data => exact tableUpdate_codes hop h
  | regenerateTransaction tableId sessionIds =>
    dsimp only [World.exec]
    unfold World.regenerateTransaction
    split
    · exact ⟨h, .refl w⟩
    · exact codesKept_reset (p := fun k _ => k == tableId) rfl (fun _ _ _ _ => rfl) h
  | rotateTransaction venueId secret sessionIds =>
    dsimp only [World.exec]
    unfold World.rotateTransaction
    split
    · exact ⟨h, .refl w⟩
    · refine codesKept_reset (p := fun _ t => t.venueId == venueId) rfl (fun id t _ hp => ?_) h
      unfold World.secretOf
      dsimp only
      rw [Rows.get?_updateAt, Option.map_map]
      refine congrArg (fun f => (w.venues.get? t.venueId).map f) (funext (fun v => ?_))
      show (if t.venueId = venueId then _ else v : Venue).qrSecret = v.qrSecret
      rw [if_neg (beq_eq_false_iff_ne.mp hp)]
  | _ => exact hscan hop

end

/-! ## What the requests ask -/

theorem createTable_calls (staff : Option StaffClaims) (name : Option Text) (code : Text) :
    (createTable staff name code).Calls Call.CodeWork (fun _ => True) := by
  unfold createTable
  split
  · exact trivial
  · split
    · exact trivial
    · exact Prog.calls_bind (Prog.calls_perform (S := api) trivial) (fun _ _ => trivial)

theorem patchTable_calls (staff : Option StaffClaims) (id : Id) (body : TablePatch) :
    (patchTable staff id body).Calls Call.CodeWork (fun _ => True) := by
  unfold patchTable
  split
  · exact trivial
  · refine Prog.calls_bind (Prog.calls_perform (S := api) trivial) (fun found _ => ?_)
    split
    · exact trivial
    · split
      · exact Prog.calls_bind (Prog.calls_perform (S := api) trivial) (fun _ _ =>
          Prog.calls_bind (Prog.calls_perform (S := api) trivial) (fun _ _ => trivial))
      · exact Prog.calls_bind (Prog.calls_perform (S := api) (fun _ => ⟨rfl, rfl, rfl⟩))
          (fun _ _ => trivial)

theorem rotateQrSecret_calls (venueId : Id) (secret : Text) :
    (rotateQrSecret venueId secret).Calls Call.CodeWork (fun _ => True) :=
  Prog.calls_bind (Prog.calls_perform (S := api) trivial)
    (fun _ _ => Prog.calls_perform (S := api) trivial)

theorem codeRequest_calls (hmac : Hmac) (r : CodeRequest) :
    (r.prog hmac).Calls Call.CodeWork (fun _ => True) := by
  cases r with
  | create staff name code =>
    exact Prog.calls_bind (createTable_calls staff name code) (fun _ _ => trivial)
  | qr r =>
    refine Prog.calls_bind (B := fun _ => True) ?_ (fun _ _ => trivial)
    cases r with
    | scan caller code sig token =>
      exact Prog.calls_bind (Prog.calls_mono (getScan_calls hmac caller code sig token)
        (fun _ h => h.codeWork) (fun _ h => h)) (fun _ _ => trivial)
    | patch staff id body =>
      exact Prog.calls_bind (patchTable_calls staff id body) (fun _ _ => trivial)
    | rotate venueId secret =>
      exact Prog.calls_bind (rotateQrSecret_calls venueId secret) (fun _ _ => trivial)

/-- **The requests keep the promise.** -/
theorem codeSound (hmac : Hmac) : (codeProtocol hmac).Sound (fun _ _ _ => True) where
  env e w hw := by
    cases e with
    | tick ms => exact ⟨hw, .of_eq rfl rfl⟩
    | crash => exact ⟨hw, .refl w⟩
  entry r w _ := by
    refine Protocol.ok_mono (Protocol.ok_of_calls (codeRequest_calls hmac r)
      (fun v w c op hop hw _ => ?_)) (fun _ _ _ => trivial)
    -- a call that fails changes nothing
    have hworld : ((codeServer hmac).exec c op w).1 = w
        ∨ ((codeServer hmac).exec c op w).1 = (World.exec c op w).1 := by
      dsimp only [server]
      split
      · exact .inl rfl
      · exact .inr rfl
    rcases hworld with hworld | hworld
    · rw [hworld]
      exact ⟨hw, .refl w, trivial⟩
    · rw [hworld]
      obtain ⟨hinv, hkept⟩ := exec_codeWork (c := c) hop hw
      exact ⟨hinv, hkept, trivial⟩

/-! ## Every run -/

/-- What is printed: the secret and the message of each table's digest. -/
def World.prints (w : World) : List (Text × Text) :=
  w.tables.rows.filterMap (fun r => (w.venues.get? r.2.venueId).map
    (fun v => (v.qrSecret, qrMessage r.2.code r.2.qrVersion)))

/-- **The digests of a run tell what they were made of apart.** -/
def DigestsApart (hmac : Hmac) (w₀ : World) (acts : List (codeServer hmac).Action) : Prop :=
  ∀ a ∈ acts.inits.flatMap (fun pre => (codeRun hmac w₀ pre).world.prints),
    ∀ b ∈ acts.inits.flatMap (fun pre => (codeRun hmac w₀ pre).world.prints),
      (hmac a.1 a.2).slice 24 = (hmac b.1 b.2).slice 24 → a = b

instance (hmac : Hmac) (w₀ : World) (acts : List (codeServer hmac).Action) :
    Decidable (DigestsApart hmac w₀ acts) := inferInstanceAs (Decidable (∀ _ ∈ _, _))

section

variable {hmac : Hmac} {w w₀ : World} {tableId : Id} {t : Table} {v : Venue}

theorem mem_prints (ht : w.tables.get? tableId = some t) (hv : w.venues.get? t.venueId = some v) :
    (v.qrSecret, qrMessage t.code t.qrVersion) ∈ w.prints := by
  refine List.mem_filterMap.mpr ⟨(tableId, t), Rows.get?_eq_some_iff.mp ht, ?_⟩
  rw [hv]
  rfl

theorem tableByCode_code {code : Text} (h : w.tableByCode code = some (tableId, t, v)) :
    t.code = code := by
  unfold World.tableByCode at h
  split at h
  · cases h
  · next id t₀ hfind =>
    obtain ⟨v₀, _, heq⟩ := Option.map_eq_some_iff.mp h
    cases heq
    exact beq_iff_eq.mp (Rows.find?_eq_some hfind).2

/-- A table is found by its code. -/
theorem tableByCode_self (hw : w.CodesUnique) (ht : w.tables.get? tableId = some t)
    (hv : w.venues.get? t.venueId = some v) : w.tableByCode t.code = some (tableId, t, v) := by
  have hfind : w.tables.find? (fun _ u => u.code == t.code) = some (tableId, t) := by
    refine Rows.find?_eq_some_iff.mpr ⟨ht, beq_self_eq_true _, fun k u hk hu => ?_⟩
    rw [hw tableId k t u ht hk (beq_iff_eq.mp hu).symm]
  unfold World.tableByCode
  rw [hfind]
  dsimp only
  rw [hv]
  rfl

theorem code_meets (acts : List (codeServer hmac).Action) :
    (Sys.Pool.init w₀).Meets (codeProtocol hmac).cond acts = true :=
  (codeProtocol hmac).meets_cond (fun _ _ _ _ _ => rfl) _ acts

theorem code_unique (hcodes : w₀.CodesUnique) (acts : List (codeServer hmac).Action) :
    (codeRun hmac w₀ acts).world.CodesUnique :=
  ((codeSound hmac).run hcodes (code_meets acts)).inv

theorem code_kept (hcodes : w₀.CodesUnique) (pre post : List (codeServer hmac).Action) :
    CodesKept (codeRun hmac w₀ pre).world (codeRun hmac w₀ (pre ++ post)).world :=
  ((codeSound hmac).run_rely hcodes (code_meets _)).evolves CodesKept.trans

theorem qrKey_iff {version : ℕ} {secret : Text} : w.qrKey tableId = some (version, secret)
    ↔ ∃ t v, w.tables.get? tableId = some t ∧ w.venues.get? t.venueId = some v
      ∧ t.qrVersion = version ∧ v.qrSecret = secret := by
  unfold World.qrKey
  constructor
  · intro h
    split at h
    · cases h
    · next t ht =>
      obtain ⟨v, hv, heq⟩ := Option.map_eq_some_iff.mp h
      cases heq
      exact ⟨t, v, ht, hv, rfl, rfl⟩
  · rintro ⟨t, v, ht, hv, rfl, rfl⟩
    rw [ht]
    dsimp only
    rw [hv]
    rfl

/-- What is accepted under a code was signed for what the code's table now has. -/
theorem acceptsCode_iff (hascii : ∀ secret message, Utf8.Ascii (hmac secret message))
    {code sig : Text} : w.acceptsCode hmac code sig = .ok true ↔ ∃ id t v,
      w.tableByCode code = some (id, t, v) ∧ sig = signTableQr hmac v.qrSecret t.code t.qrVersion := by
  unfold World.acceptsCode
  split
  · next hnone =>
    refine ⟨fun h => (nomatch h), ?_⟩
    rintro ⟨id, t, v, hfound, _⟩
    cases hnone.symm.trans hfound
  · next id t v hfound =>
    rw [verifyTableQrBytes_eq _ _ _ _ hascii, Except.ok.injEq]
    refine ⟨fun h => ⟨id, t, v, hfound, beq_iff_eq.mp h⟩, ?_⟩
    rintro ⟨id', t', v', hfound', hsig⟩
    cases hfound.symm.trans hfound'
    exact beq_iff_eq.mpr hsig

/-- A table's key, once it is back at what it was, has not changed in between. -/
theorem key_unchanged {w' w'' : World} {t' : Table} (h : CodesKept w w') (h' : CodesKept w' w'')
    (ht : w.tables.get? tableId = some t) (hv : w.venues.get? t.venueId = some v)
    (ht' : w''.tables.get? tableId = some t') (hversion : t'.qrVersion = t.qrVersion) :
    w'.qrKey tableId = some (t.qrVersion, v.qrSecret) := by
  obtain ⟨u, hu, hvenue, _, hle, hsecret⟩ := h.tables tableId t ht
  obtain ⟨u', hu', _, _, hle', _⟩ := h'.tables tableId u hu
  obtain rfl : u' = t' := Option.some.inj (hu'.symm.trans ht')
  have hmid : u.qrVersion = t.qrVersion := Nat.le_antisymm (hversion ▸ hle') hle
  have hkept := hsecret hmid
  unfold World.secretOf at hkept
  rw [hv, Option.map_some] at hkept
  obtain ⟨v', hv', hsame⟩ := Option.map_eq_some_iff.mp hkept
  exact qrKey_iff.mpr ⟨u, v', hu, hvenue ▸ hv', hmid, hsame⟩

end

/-- **Old codes stay dead**: what is signed for a table at one point of a run is accepted at a
later one under the code of that table, as long as neither its version nor the secret of its
venue has changed, and under no other; and no text makes the check throw. -/
theorem old_codes_dead (hmac : Hmac) (hascii : ∀ secret message, Utf8.Ascii (hmac secret message))
    (w₀ : World) (hcodes : w₀.CodesUnique) (pre post : List (codeServer hmac).Action)
    (hapart : DigestsApart hmac w₀ (pre ++ post)) (tableId : Id) (table : Table) (venue : Venue)
    (htable : (codeRun hmac w₀ pre).world.tables.get? tableId = some table)
    (hvenue : (codeRun hmac w₀ pre).world.venues.get? table.venueId = some venue) (code : Text) :
    ((codeRun hmac w₀ (pre ++ post)).world.acceptsCode hmac code
        (signTableQr hmac venue.qrSecret table.code table.qrVersion) = .ok true
      ↔ ((codeRun hmac w₀ (pre ++ post)).world.tables.get? tableId).map Table.code = some code
        ∧ ∀ mid rest, post = mid ++ rest → (codeRun hmac w₀ (pre ++ mid)).world.qrKey tableId
          = some (table.qrVersion, venue.qrSecret))
      ∧ ∀ (qrSecret tableCode : Text) (qrVersion : ℕ) (sig : Text),
        ∃ b, verifyTableQrBytes hmac qrSecret tableCode qrVersion sig = .ok b := by
  refine ⟨?_, verifyTableQrBytes_total hmac⟩
  have hunique := code_unique hcodes (pre ++ post)
  obtain ⟨table', htable', hvenue', hcode', _, _⟩ :=
    (code_kept hcodes pre post).tables tableId table htable
  rw [acceptsCode_iff hascii, htable', Option.map_some, Option.some.injEq]
  constructor
  · rintro ⟨id, t, v, hfound, hsig⟩
    obtain ⟨ht, hv⟩ := tableByCode_spec hfound
    -- the two digests are prints of the run
    have hprints : (venue.qrSecret, qrMessage table.code table.qrVersion)
        = (v.qrSecret, qrMessage t.code t.qrVersion) :=
      hapart _ (List.mem_flatMap.mpr ⟨pre, (List.mem_inits _ _).mpr (List.prefix_append _ _),
          mem_prints htable hvenue⟩) _
        (List.mem_flatMap.mpr ⟨pre ++ post, (List.mem_inits _ _).mpr List.prefix_rfl,
          mem_prints ht hv⟩) hsig
    obtain ⟨_, hmessage⟩ := Prod.ext_iff.mp hprints
    obtain ⟨hcode, hversion⟩ := qrMessage_injective hmessage
    -- a code is of one table
    obtain rfl : tableId = id := hunique _ _ _ _ htable' ht (hcode'.trans hcode)
    obtain rfl : table' = t := Option.some.inj (htable'.symm.trans ht)
    refine ⟨tableByCode_code hfound, fun mid rest hpost => ?_⟩
    have hrest : CodesKept (codeRun hmac w₀ (pre ++ mid)).world
        (codeRun hmac w₀ (pre ++ mid ++ rest)).world := code_kept hcodes (pre ++ mid) rest
    rw [List.append_assoc, ← hpost] at hrest
    exact key_unchanged (code_kept hcodes pre mid) hrest htable hvenue ht hversion.symm
  · rintro ⟨rfl, hkey⟩
    obtain ⟨t, v, ht, hv, hversion, hsecret⟩ := qrKey_iff.mp (hkey post [] (List.append_nil _).symm)
    obtain rfl : table' = t := Option.some.inj (htable'.symm.trans ht)
    exact ⟨tableId, table', v, tableByCode_self hunique ht hv, by rw [hsecret, hversion, hcode']⟩

/-! ### A table is created, and reset -/

/-- A venue without tables. -/
def noTables : World :=
  { World.blank 0 with
    venues := Rows.ofList [⟨[], [], text "test-venue-qr-secret-abcdefghijklmnop", none⟩] }

/-- The digests of the first two versions of its table, under its secret. -/
def twoDigests : Hmac := fun secret message =>
  if secret = text "test-venue-qr-secret-abcdefghijklmnop" then
    if message = text "aB3xY9zQ:1" then text "x8z7H7nzZDA0m_bhzWsu7YxauYpwt8Et2RbEVF6o_nU"
    else if message = text "aB3xY9zQ:2" then text "ALcMqWC_SjGSspVaAFtUu1zUq07nKKOPOGXpgMcmCBo"
    else []
  else []

/-- The table is created. -/
def created : List (codeServer twoDigests).Action :=
  [.arrive (.create (some ⟨0, 0, []⟩) (some (text "1")) (text "aB3xY9zQ")), .step 0 plain]

/-- Its code is reset. -/
def resetLater : List (codeServer twoDigests).Action :=
  .arrive (.qr (.patch (some ⟨0, 0, []⟩) 0 ⟨true, none, none⟩)) :: List.replicate 3 (.step 1 plain)

/-- **The first print is worth nothing after the reset.** -/
theorem old_codes_dead_reset :
    (codeRun twoDigests noTables (created ++ resetLater)).world.acceptsCode twoDigests
      (text "aB3xY9zQ") (signTableQr twoDigests (text "test-venue-qr-secret-abcdefghijklmnop")
        (text "aB3xY9zQ") 1) ≠ .ok true := by
  intro haccepted
  have hascii : ∀ secret message, Utf8.Ascii (twoDigests secret message) := by
    intro secret message
    have hbelow : (twoDigests secret message).all (fun u => decide (u < 128)) = true := by
      unfold twoDigests
      repeat' split
      all_goals decide +kernel
    exact fun u hu => of_decide_eq_true (List.all_eq_true.mp hbelow u hu)
  have hdead := old_codes_dead twoDigests hascii noTables (fun _ _ _ _ h => nomatch h) created
    resetLater (by decide +kernel) 0 ⟨0, text "aB3xY9zQ", text "1", 1, true⟩
    ⟨[], [], text "test-venue-qr-secret-abcdefghijklmnop", none⟩ (by rfl) (by rfl) (text "aB3xY9zQ")
  have hkey := (hdead.1.mp haccepted).2 resetLater [] (List.append_nil _).symm
  have hreset : ((codeRun twoDigests noTables (created ++ resetLater)).world.qrKey 0).map Prod.fst
      = some 2 := by decide +kernel
  rw [hkey] at hreset
  cases hreset

end Masadan
