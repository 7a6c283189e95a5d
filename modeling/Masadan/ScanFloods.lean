import Masadan.Eviction
import Masadan.Handlers

/-!
# A flood of scans

A scan that fails is put into the ledger, and two counters say when no more: one over the
failures of all addresses, and one for each address, which turns the address away before its
table is looked up. Being turned away is put on record too, once in a window of the address,
and that record is counted by nobody else.

So the failures that are counted put no more than `GLOBAL_FAIL_LIMIT` rows into the ledger
while a window of the venue-wide counter is open; but each forged address that is used up
puts one more (`flood_bounded_fails`). How many rows there are is read off the times of the
scans and their addresses (`flood_bounded`).
-/

namespace Masadan

/-! ## One scan after another -/

structure ScanRequest where
  caller : Caller
  code : Text
  sig : Text
  token : ℕ

def ScanRequest.prog (hmac : Hmac) (r : ScanRequest) : Api ScanAnswer :=
  getScan hmac r.caller r.code r.sig r.token

/-- The code is unknown, its table inactive, or the signature bad. -/
def World.fails (hmac : Hmac) (w : World) (r : ScanRequest) : Bool :=
  match w.tableByCode r.code with
  | none => true
  | some (_, table, venue) =>
    !table.active || !verifyTableQr hmac venue.qrSecret table.code table.qrVersion r.sig

/-- **One scan**, at a time, with nobody else about. -/
def World.scan (hmac : Hmac) (w : World) (s : Time × ScanRequest) : World :=
  World.after { w with now := s.1 } (s.2.prog hmac)

/-- Scans, one after another. -/
def World.scans (hmac : Hmac) (w : World) (trace : List (Time × ScanRequest)) : World :=
  trace.foldl (World.scan hmac) w

/-- The rows of the ledger. -/
def World.attempts (w : World) : ℕ := w.orderAttempts.rows.length

/-- The counters of an address. -/
def failKey (ip : Text) : Text := text "scan:fail:" ++ ip
def faillogKey (ip : Text) : Text := text "scan:faillog:" ++ ip
def okKey (ip : Text) : Text := text "scan:ok:" ++ ip

/-- The counter of all failures. It is an address's own, if one calls itself so. -/
def failAll : Text := failKey (text "all")

section

variable {hmac : Hmac} {w : World} {r : ScanRequest} {t : Time}

/-- **What a scan that fails leaves**: the windows its counters went through, and a row if
the last of them let it. -/
structure ScanFailed (w : World) (r : ScanRequest) (t : Time) (w' : World) : Prop where
  tables : w'.tables = w.tables
  venues : w'.venues = w.venues
  turned : ∀ log, (failGate r.caller.address t w.windows).2 = some log →
    w'.windows = (failGate r.caller.address t w.windows).1
      ∧ w'.attempts = w.attempts + if log then 1 else 0
  counted : (failGate r.caller.address t w.windows).2 = none →
    w'.windows = (rateLimit failAll GLOBAL_FAIL_LIMIT FAIL_WINDOW_SEC t
      (failGate r.caller.address t w.windows).1).1
      ∧ w'.attempts = w.attempts + if (rateLimit failAll GLOBAL_FAIL_LIMIT FAIL_WINDOW_SEC t
        (failGate r.caller.address t w.windows).1).2.allowed then 1 else 0

/-- What the limiter is asked, alone. -/
theorem alone_limiter {α β : Type} {Q : World → Except DbError β → Prop}
    {g : Time → Windows → Windows × α} {f : α → Api β}
    (h : Alone Q (f (g w.now w.windows).2) { w with windows := (g w.now w.windows).1 }) :
    Alone Q ((perform (.limiter g)).bind f) w := h

/-- A row of the ledger, alone. -/
theorem alone_logAttempt {β : Type} {Q : World → Except DbError β → Prop} {caller : Caller}
    {outcome : AttemptOutcome} {extra : AttemptInfo} {f : Unit → Api β}
    (h : ∀ row, Alone Q (f ()) (w.orderAttemptCreate row)) :
    Alone Q ((logAttempt caller outcome extra).bind f) w := h _

theorem attempts_create (w : World) (row : NewOrderAttempt) :
    (w.orderAttemptCreate row).attempts = w.attempts + 1 := by
  show (w.orderAttempts.rows ++ [_]).length = _
  rw [List.length_append, List.length_singleton]
  rfl

/-- **A failure is counted**, and is put on record while there is budget. -/
theorem alone_logFailure {β : Type} {Q : World → Except DbError β → Prop} {caller : Caller}
    {outcome : AttemptOutcome} {extra : AttemptInfo} {b : β}
    (h : ∀ w' : World, w'.tables = w.tables → w'.venues = w.venues →
      w'.windows = (rateLimit failAll GLOBAL_FAIL_LIMIT FAIL_WINDOW_SEC w.now w.windows).1 →
      w'.attempts = w.attempts + (if (rateLimit failAll GLOBAL_FAIL_LIMIT FAIL_WINDOW_SEC w.now
        w.windows).2.allowed then 1 else 0) → Q w' (.ok b)) :
    Alone Q ((logFailure caller outcome extra).bind (fun _ => .ret b)) w := by
  unfold logFailure
  rw [Prog.bind_eq, Prog.bind_assoc]
  refine alone_limiter ?_
  change Alone Q (Prog.bind (if (rateLimit failAll GLOBAL_FAIL_LIMIT FAIL_WINDOW_SEC w.now
    w.windows).2.allowed then _ else _) _) _
  by_cases hallowed : (rateLimit failAll GLOBAL_FAIL_LIMIT FAIL_WINDOW_SEC w.now
    w.windows).2.allowed = true
  · rw [if_pos hallowed]
    refine alone_logAttempt (fun row => h _ rfl rfl rfl ((attempts_create _ row).trans ?_))
    rw [if_pos hallowed]
    rfl
  · rw [if_neg hallowed]
    refine h _ rfl rfl rfl ?_
    rw [if_neg hallowed]
    rfl

theorem scan_failed (h : w.fails hmac r = true) : ScanFailed w r t (w.scan hmac (t, r)) := by
  show Alone (fun w' _ => ScanFailed w r t w')
    (getScan hmac r.caller r.code r.sig r.token) { w with now := t }
  unfold getScan
  refine alone_limiter ?_
  dsimp only
  cases hgate : (failGate r.caller.address t w.windows).2 with
  | some log =>
    have hturned : ∀ w' : World, w'.tables = w.tables → w'.venues = w.venues →
        w'.windows = (failGate r.caller.address t w.windows).1 →
        w'.attempts = w.attempts + (if log then 1 else 0) → ScanFailed w r t w' := by
      intro w' ht hv hw hrow
      refine ⟨ht, hv, fun log' hlog => ?_, fun hnone => ?_⟩
      · obtain rfl : log = log' := Option.some.inj (hgate.symm.trans hlog)
        exact ⟨hw, hrow⟩
      · cases hgate.symm.trans hnone
    cases log with
    | true => exact alone_logAttempt (fun row => hturned _ rfl rfl rfl (attempts_create _ row))
    | false => exact hturned _ rfl rfl rfl rfl
  | none =>
    have hcounted : ∀ {caller : Caller} {outcome : AttemptOutcome} {extra : AttemptInfo},
        Alone (fun w' _ => ScanFailed w r t w')
          ((logFailure caller outcome extra).bind (fun _ => .ret ScanAnswer.wall))
          { w with now := t, windows := (failGate r.caller.address t w.windows).1 } := by
      intro caller outcome extra
      refine alone_logFailure (fun w' ht hv hw hrow => ⟨ht, hv, fun log hlog => ?_, fun _ => ⟨hw, hrow⟩⟩)
      cases hgate.symm.trans hlog
    refine alone_query ?_
    have htable : World.tableByCode
        { w with now := t, windows := (failGate r.caller.address t w.windows).1 } r.code
        = w.tableByCode r.code := rfl
    unfold World.fails at h
    rw [htable]
    split
    · exact hcounted
    · next id table venue hfound =>
      rw [hfound] at h
      dsimp only at h
      by_cases hactive : table.active = true
      · rw [hactive] at h ⊢
        have hbad : verifyTableQr hmac venue.qrSecret table.code table.qrVersion r.sig = false :=
          Bool.not_eq_true' _ |>.mp h
        rw [hbad]
        exact hcounted
      · rw [Bool.not_eq_true] at hactive
        rw [hactive]
        exact hcounted

end

/-! ## What the counters let into the ledger -/

/-- What the limiter's map holds. -/
def World.meters (w : World) : Meters := Windows.meters w.windows

section

variable (m : Meters) (s : Time × ScanRequest)

/-- The scan's address has failures left: the gate lets it on. -/
def Meters.admits : Bool := FixedWindow.room FAIL_LIMIT s.1 (m (failKey s.2.caller.address))

/-- The gate has counted it. -/
def Meters.gated : Meters := m.hit (failKey s.2.caller.address) FAIL_WINDOW_SEC s.1

/-- Its failure is put on record. -/
def Meters.records : Bool :=
  m.admits s && FixedWindow.room GLOBAL_FAIL_LIMIT s.1 (m.gated s failAll)

/-- That its address is turned away is put on record. -/
def Meters.notes : Bool :=
  !m.admits s && FixedWindow.room 1 s.1 (m.gated s (faillogKey s.2.caller.address))

/-- It has failed. -/
def Meters.failed : Meters :=
  if m.admits s then (m.gated s).hit failAll FAIL_WINDOW_SEC s.1
  else (m.gated s).hit (faillogKey s.2.caller.address) FAIL_WINDOW_SEC s.1

end

/-- How many scans of a trace are such, while the counters go along. -/
def Meters.tally (f : Meters → Time × ScanRequest → Bool) :
    Meters → List (Time × ScanRequest) → ℕ
  | _, [] => 0
  | m, s :: rest => (if f m s then 1 else 0) + tally f (m.failed s) rest

/-! ## The map of the windows -/

section

variable {hmac : Hmac} {w : World} {windows : Windows} {m : Meters} {now : Time} {ip : Text}
  {s : Time × ScanRequest} {trace : List (Time × ScanRequest)}

theorem failKey_injective {ip' : Text} (h : failKey ip = failKey ip') : ip = ip' :=
  List.append_cancel_left h

theorem failAll_ne_faillogKey : failAll ≠ faillogKey ip := by
  intro h
  have hat := congrArg (fun l => l[9]?) h
  unfold failAll failKey faillogKey at hat
  cases hat

theorem failKey_ne_okKey : failKey ip ≠ okKey ip := by
  intro h
  have hat := congrArg (fun l => l[5]?) h
  unfold failKey okKey at hat
  cases hat

/-- **The gate is answered by the counters.** -/
theorem Reads.failGate (h : Reads s.1 windows m) :
    if m.admits s then
      (Masadan.failGate s.2.caller.address s.1 windows).2 = none
        ∧ Reads s.1 (Masadan.failGate s.2.caller.address s.1 windows).1 (m.gated s)
    else
      (Masadan.failGate s.2.caller.address s.1 windows).2 = some (m.notes s)
        ∧ Reads s.1 (Masadan.failGate s.2.caller.address s.1 windows).1 (m.failed s) := by
  obtain ⟨hallowed, hgated⟩ := h.rateLimit (failKey s.2.caller.address) FAIL_LIMIT FAIL_WINDOW_SEC
  obtain ⟨hlogged, hnoted⟩ := hgated.rateLimit (faillogKey s.2.caller.address) 1 FAIL_WINDOW_SEC
  change _ = m.admits s at hallowed
  unfold Masadan.failGate
  dsimp only
  rw [show text "scan:fail:" ++ s.2.caller.address = failKey s.2.caller.address from rfl,
    show text "scan:faillog:" ++ s.2.caller.address = faillogKey s.2.caller.address from rfl,
    hallowed]
  by_cases hadmits : m.admits s = true
  · rw [if_pos hadmits, if_pos hadmits]
    exact ⟨rfl, hgated⟩
  · rw [if_neg hadmits, if_neg hadmits, hlogged]
    have hturned : m.admits s = false := Bool.not_eq_true _ ▸ hadmits
    unfold Meters.notes Meters.failed
    rw [hturned, if_neg Bool.false_ne_true, Bool.not_false, Bool.true_and]
    exact ⟨rfl, hnoted⟩

/-- **So is the whole scan**, and its rows are those the counters let into the ledger. -/
theorem Reads.scan (h : Reads now w.windows m) (ht : now ≤ s.1) (hfails : w.fails hmac s.2 = true) :
    (w.scan hmac s).attempts = w.attempts + ((if m.records s then 1 else 0)
        + (if m.notes s then 1 else 0))
      ∧ Reads s.1 (w.scan hmac s).windows (m.failed s) := by
  have hfailed : ScanFailed w s.2 s.1 (w.scan hmac s) := scan_failed hfails
  have hgate := (h.later ht).failGate (s := s)
  by_cases hadmits : m.admits s = true
  · rw [if_pos hadmits] at hgate
    obtain ⟨hwindows, hrow⟩ := hfailed.counted hgate.1
    obtain ⟨hallowed, hcounted⟩ := hgate.2.rateLimit failAll GLOBAL_FAIL_LIMIT FAIL_WINDOW_SEC
    rw [hwindows, hrow, hallowed]
    unfold Meters.records Meters.notes Meters.failed
    rw [hadmits, Bool.true_and, if_pos rfl, Bool.not_true, Bool.false_and,
      if_neg Bool.false_ne_true, Nat.add_zero]
    exact ⟨rfl, hcounted⟩
  · rw [if_neg hadmits] at hgate
    obtain ⟨hwindows, hrow⟩ := hfailed.turned _ hgate.1
    have hnone : m.records s = false := Bool.and_eq_false_iff.mpr (.inl (Bool.not_eq_true _ ▸ hadmits))
    rw [hwindows, hrow, hnone, if_neg Bool.false_ne_true, Nat.zero_add]
    exact ⟨rfl, hgate.2⟩

theorem fails_congr {w' : World} (ht : w'.tables = w.tables) (hv : w'.venues = w.venues)
    (r : ScanRequest) : w'.fails hmac r = w.fails hmac r := by
  unfold World.fails World.tableByCode
  rw [ht, hv]

/-- **And a whole flood**: its rows are counted along its times and addresses. -/
theorem Reads.scans (h : Reads now w.windows m) (hnow : ∀ s ∈ trace, now ≤ s.1)
    (hclock : trace.Pairwise (fun s s' => s.1 ≤ s'.1))
    (hfails : ∀ s ∈ trace, w.fails hmac s.2 = true) :
    (w.scans hmac trace).attempts
      = w.attempts + (m.tally Meters.records trace + m.tally Meters.notes trace) := by
  induction trace generalizing w m now with
  | nil => rfl
  | cons s rest ih =>
    obtain ⟨hhead, hrest⟩ := List.pairwise_cons.mp hclock
    have hfail := hfails s List.mem_cons_self
    have hfailed : ScanFailed w s.2 s.1 (w.scan hmac s) := scan_failed hfail
    obtain ⟨hrow, hreads⟩ := h.scan (hnow s List.mem_cons_self) hfail
    have hmore := ih hreads hhead hrest (fun s' hs' =>
      (fails_congr hfailed.tables hfailed.venues s'.2).trans (hfails s' (List.mem_cons_of_mem _ hs')))
    show ((w.scan hmac s).scans hmac rest).attempts = _
    unfold Meters.tally
    omega

/-! ## The window of all failures -/

/-- The scan is of no address that is called as all are together. -/
def Named (s : Time × ScanRequest) : Prop := s.2.caller.address ≠ text "all"

instance (s : Time × ScanRequest) : Decidable (Named s) := inferInstanceAs (Decidable (_ ≠ _))

theorem gated_failAll (h : Named s) : m.gated s failAll = m failAll :=
  Meters.hit_other (fun heq => h (failKey_injective heq).symm)

/-- One that is called so is counted there by its gate. -/
theorem gated_all (h : ¬ Named s) : m.gated s failAll
    = some (FixedWindow.hit (FAIL_WINDOW_SEC * 1000) s.1 (m failAll)) := by
  have hkey : failKey s.2.caller.address = failAll := congrArg failKey (not_not.mp h)
  unfold Meters.gated
  rw [hkey]
  exact Meters.hit_self

/-- A failure is counted there. -/
theorem failed_admitted (h : m.admits s = true) : m.failed s failAll
    = some (FixedWindow.hit (FAIL_WINDOW_SEC * 1000) s.1 (m.gated s failAll)) := by
  unfold Meters.failed
  rw [if_pos h]
  exact Meters.hit_self

/-- A scan that is turned away is not. -/
theorem failed_turned (h : ¬ m.admits s = true) : m.failed s failAll = m.gated s failAll := by
  unfold Meters.failed
  rw [if_neg h]
  exact Meters.hit_other failAll_ne_faillogKey

/-- **In a window of all failures** what is left of its limit is recorded, and no less, if no
address is called as all are together. -/
theorem tally_records {start : Time} {n : ℕ}
    (hn : FixedWindow.Stands (FAIL_WINDOW_SEC * 1000) start n (m failAll))
    (hwindow : ∀ s ∈ trace, start ≤ s.1 ∧ s.1 < start + FAIL_WINDOW_SEC * 1000) :
    m.tally Meters.records trace ≤ GLOBAL_FAIL_LIMIT - n
      ∧ ((∀ s ∈ trace, Named s) → m.tally Meters.records trace
        = min (m.tally Meters.admits trace) (GLOBAL_FAIL_LIMIT - n)) := by
  induction trace generalizing m n with
  | nil => exact ⟨Nat.zero_le _, fun _ => (Nat.zero_min _).symm⟩
  | cons s rest ih =>
    obtain ⟨hstart, hend⟩ := hwindow s List.mem_cons_self
    have hrest : ∀ s' ∈ rest, start ≤ s'.1 ∧ s'.1 < start + FAIL_WINDOW_SEC * 1000 :=
      fun s' hs' => hwindow s' (List.mem_cons_of_mem _ hs')
    -- the window after the gate, which may have counted one more
    obtain ⟨k, hk, hgated, hsame⟩ : ∃ k, n ≤ k ∧ FixedWindow.Stands (FAIL_WINDOW_SEC * 1000) start k
        (m.gated s failAll) ∧ (Named s → k = n) := by
      by_cases hnamed : Named s
      · exact ⟨n, le_rfl, by rw [gated_failAll hnamed]; exact hn, fun _ => rfl⟩
      · exact ⟨n + 1, Nat.le_succ _, by rw [gated_all hnamed]; exact hn.hit hstart hend,
          fun h => absurd h hnamed⟩
    unfold Meters.tally
    by_cases hadmits : m.admits s = true
    · have hnext := hgated.hit hstart hend
      rw [← failed_admitted hadmits] at hnext
      obtain ⟨hle, hall⟩ := ih hnext hrest
      have hrecords : m.records s = decide (k < GLOBAL_FAIL_LIMIT) := by
        unfold Meters.records
        rw [hadmits, Bool.true_and, hgated.room hstart hend (by decide)]
      rw [hrecords, if_pos hadmits]
      have hcase : (if decide (k < GLOBAL_FAIL_LIMIT) = true then 1 else 0)
          = min 1 (GLOBAL_FAIL_LIMIT - k) := by
        by_cases hroom : k < GLOBAL_FAIL_LIMIT
        · rw [if_pos (decide_eq_true hroom)]
          omega
        · rw [if_neg (by simpa using hroom)]
          omega
      rw [hcase]
      refine ⟨by omega, fun hnamed => ?_⟩
      have hcount := hsame (hnamed s List.mem_cons_self)
      rw [hall (fun s' hs' => hnamed s' (List.mem_cons_of_mem _ hs'))]
      omega
    · rw [← failed_turned hadmits] at hgated
      obtain ⟨hle, hall⟩ := ih hgated hrest
      have hnone : m.records s = false :=
        Bool.and_eq_false_iff.mpr (.inl (Bool.not_eq_true _ ▸ hadmits))
      rw [hnone, if_neg Bool.false_ne_true, if_neg hadmits]
      refine ⟨by omega, fun hnamed => ?_⟩
      have hcount := hsame (hnamed s List.mem_cons_self)
      rw [hall (fun s' hs' => hnamed s' (List.mem_cons_of_mem _ hs')), hcount, Nat.zero_add,
        Nat.zero_add]

end

/-- **How many rows a flood writes** while one window of the failure counter is open: one for
each failure that its own address's counter lets on and the venue-wide one into the ledger,
and one for each window of an address that is used up. So it writes no more than the limit
exactly if these are no more. -/
theorem flood_bounded (hmac : Hmac) (w : World) (hdistinct : Windows.Distinct w.windows) (start : Time)
    (hopens : Windows.Opens w.windows failAll start) (trace : List (Time × ScanRequest))
    (hfails : ∀ s ∈ trace, w.fails hmac s.2 = true)
    (hclock : trace.Pairwise (fun s s' => s.1 ≤ s'.1))
    (hwindow : ∀ s ∈ trace, start ≤ s.1 ∧ s.1 < start + FAIL_WINDOW_SEC * 1000) :
    (w.scans hmac trace).attempts = w.attempts
        + (w.meters.tally Meters.records trace + w.meters.tally Meters.notes trace)
      ∧ w.meters.tally Meters.records trace ≤ GLOBAL_FAIL_LIMIT
      ∧ ((∀ s ∈ trace, Named s) → w.meters.tally Meters.records trace
        = min (w.meters.tally Meters.admits trace) GLOBAL_FAIL_LIMIT)
      ∧ ((w.scans hmac trace).attempts ≤ w.attempts + GLOBAL_FAIL_LIMIT
        ↔ w.meters.tally Meters.records trace
          + w.meters.tally Meters.notes trace ≤ GLOBAL_FAIL_LIMIT) := by
  have hreads : Reads start w.windows w.meters := .start hdistinct start
  have hrows := hreads.scans (fun s hs => (hwindow s hs).1) hclock hfails
  have hclosed : FixedWindow.Closed start (w.meters failAll) := by
    intro v hv
    obtain ⟨e, he, rfl⟩ := Option.map_eq_some_iff.mp hv
    exact hopens e he
  obtain ⟨hle, hall⟩ := tally_records (.inl ⟨rfl, hclosed⟩) hwindow
  refine ⟨hrows, hle, hall, ?_⟩
  rw [hrows]
  exact Nat.add_le_add_iff_left

/-! ### Forged addresses -/

/-- A scan of a code nobody has, from an address. -/
def guess (ip : Text) : ScanRequest := ⟨⟨ip, []⟩, [], [], 0⟩

/-- Ten addresses, each used up; and one scan more from the last. -/
def tenAddresses : List (Time × ScanRequest) :=
  (List.range 10).flatMap (fun i => List.replicate 20 (0, guess [i.toUInt16]))
    ++ [(0, guess [9])]

/-- **Each address that is used up puts one row more on record.** -/
theorem flood_bounded_fails :
    ¬ ∀ (hmac : Hmac) (w : World), Windows.Distinct w.windows → ∀ (start : Time),
      Windows.Opens w.windows failAll start → ∀ (trace : List (Time × ScanRequest)),
      (∀ s ∈ trace, w.fails hmac s.2 = true) → trace.Pairwise (fun s s' => s.1 ≤ s'.1) →
      (∀ s ∈ trace, start ≤ s.1 ∧ s.1 < start + FAIL_WINDOW_SEC * 1000) →
      (w.scans hmac trace).attempts ≤ w.attempts + GLOBAL_FAIL_LIMIT := by
  intro h
  have hmore : ((World.blank 0).scans (fun _ message => message) tenAddresses).attempts = 201 := by
    decide +kernel
  have hle := h (fun _ message => message) (World.blank 0) List.nodup_nil 0 (fun _ hw => nomatch hw)
    tenAddresses (by decide +kernel) (by decide +kernel) (by decide +kernel)
  rw [hmore] at hle
  exact absurd hle (by decide)

/-- Twelve addresses, each used up and turned away once and more. -/
def twelveAddresses : List (Time × ScanRequest) :=
  (List.range 12).flatMap (fun i => List.replicate 23 (0, guess [i.toUInt16]))

/-- Of their 240 failures 200 are on record, and so are the twelve addresses. -/
theorem flood_bounded_forged :
    ((World.blank 0).scans (fun _ message => message) twelveAddresses).attempts = 212 := by
  have h := flood_bounded (fun _ message => message) (World.blank 0) List.nodup_nil 0
    (fun _ hw => nomatch hw) twelveAddresses (by decide +kernel) (by decide +kernel)
    (by decide +kernel)
  have hrecords := h.2.2.1 (by decide +kernel)
  have hadmits : (World.blank 0).meters.tally Meters.admits twelveAddresses = 240 := by
    decide +kernel
  have hnotes : (World.blank 0).meters.tally Meters.notes twelveAddresses = 12 := by
    decide +kernel
  rw [h.1, hrecords, hadmits, hnotes]
  rfl

end Masadan
