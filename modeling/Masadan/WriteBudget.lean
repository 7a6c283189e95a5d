import Masadan.Eviction

/-!
# Whose budget a refused write spends

`writeBudget` (`src/lib/rateLimit.ts`) counts a write in its address's window and then in
the one all addresses share, and it counts it there also when its address has just been
refused. What the two windows answer does not depend on the map they are kept in
(`Tracks`): a budget is a window for each address and a shared one (`Counters`). There the
calls that were refused for their address are compared with their absence
(`budget_unspent`).
-/

namespace Masadan

structure BudgetLimit where
  limit : ℕ
  windowSec : ℤ
  deriving DecidableEq, Repr

/-- A scope, and its two limits. -/
structure Budget where
  scope : Text
  perIp : BudgetLimit
  overall : BudgetLimit
  deriving DecidableEq, Repr

/-- `ip || "unknown"`. -/
def ipOrUnknown (ip : Text) : Text := if ip = [] then text "unknown" else ip

def Budget.ipKey (b : Budget) (address : Text) : Text := b.scope ++ text ":ip:" ++ address

def Budget.allKey (b : Budget) : Text := b.scope ++ text ":all"

/-- **A budget for writes an anonymous caller can trigger**: the window of the address, and
the one they share. Each reads the clock. -/
def writeBudget (b : Budget) (ip : Text) (ipAt allAt : Time) (windows : Windows) :
    Windows × Bool :=
  let byIp := rateLimit (b.ipKey (ipOrUnknown ip)) b.perIp.limit b.perIp.windowSec ipAt windows
  let overall := rateLimit b.allKey b.overall.limit b.overall.windowSec allAt byIp.1
  (overall.1, byIp.2.allowed && overall.2.allowed)

/-! ## Traces -/

/-- A call, and the clock at its two hits. -/
structure BudgetCall where
  ip : Text
  ipAt : Time
  allAt : Time
  deriving DecidableEq, Repr

def BudgetCall.address (c : BudgetCall) : Text := ipOrUnknown c.ip

/-- The clock does not go back. -/
def Onward (calls : List BudgetCall) : Prop :=
  (∀ c ∈ calls, c.ipAt ≤ c.allAt) ∧ calls.Pairwise (fun c c' => c.allAt ≤ c'.ipAt)

instance (calls : List BudgetCall) : Decidable (Onward calls) :=
  inferInstanceAs (Decidable (_ ∧ _))

/-- The call is one of the address, and is refused because the address is over its limit. -/
def Budget.refuses (b : Budget) (address : Text) (windows : Windows) (c : BudgetCall) : Bool :=
  decide (c.address = address) && !windows.room (b.ipKey c.address) b.perIp.limit c.ipAt

/-- What a trace of calls is answered. -/
def Budget.results (b : Budget) : Windows → List BudgetCall → List Bool
  | _, [] => []
  | windows, c :: cs =>
    let r := writeBudget b c.ip c.ipAt c.allAt windows
    r.2 :: b.results r.1 cs

/-- The trace without the calls of an address that it refuses for the address. -/
def Budget.without (b : Budget) (address : Text) : Windows → List BudgetCall → List BudgetCall
  | _, [] => []
  | windows, c :: cs =>
    let rest := b.without address (writeBudget b c.ip c.ipAt c.allAt windows).1 cs
    if b.refuses address windows c then rest else c :: rest

/-- What the calls that are left are answered in the whole trace. -/
def Budget.others (b : Budget) (address : Text) : Windows → List BudgetCall → List Bool
  | _, [] => []
  | windows, c :: cs =>
    let r := writeBudget b c.ip c.ipAt c.allAt windows
    let rest := b.others address r.1 cs
    if b.refuses address windows c then rest else r.2 :: rest

/-! ## Two windows -/

/-- The window of each address, and the one they share. -/
structure Counters where
  own : Text → Option FixedWindow.Win
  all : Option FixedWindow.Win

section

variable (b : Budget) (address : Text)

/-- The windows after a call. -/
def Budget.count (s : Counters) (c : BudgetCall) : Counters where
  own := Function.update s.own c.address
    (some (FixedWindow.hit (b.perIp.windowSec * 1000) c.ipAt (s.own c.address)))
  all := some (FixedWindow.hit (b.overall.windowSec * 1000) c.allAt s.all)

/-- The address's window has room for the call. -/
def Budget.admits (s : Counters) (c : BudgetCall) : Bool :=
  FixedWindow.room b.perIp.limit c.ipAt (s.own c.address)

/-- The shared window has room for the call. -/
def Budget.hasRoom (s : Counters) (c : BudgetCall) : Bool :=
  FixedWindow.room b.overall.limit c.allAt s.all

/-- The call is one of the address, whose window has no room for it. -/
def Budget.turnsAway (s : Counters) (c : BudgetCall) : Bool :=
  decide (c.address = address) && !b.admits s c

end

/-- The calls of a trace that are left. -/
def Budget.left (b : Budget) (address : Text) : Counters → List BudgetCall → List BudgetCall
  | _, [] => []
  | s, c :: cs =>
    let rest := b.left address (b.count s c) cs
    if b.turnsAway address s c then rest else c :: rest

/-- What a trace is answered. -/
def Budget.answers (b : Budget) : Counters → List BudgetCall → List Bool
  | _, [] => []
  | s, c :: cs => (b.admits s c && b.hasRoom s c) :: b.answers (b.count s c) cs

/-- What the calls that are left are answered in the whole trace. -/
def Budget.answersLeft (b : Budget) (address : Text) : Counters → List BudgetCall → List Bool
  | _, [] => []
  | s, c :: cs =>
    let rest := b.answersLeft address (b.count s c) cs
    if b.turnsAway address s c then rest else (b.admits s c && b.hasRoom s c) :: rest

/-- **The refused calls cost nobody a place**: at each call that its address's window lets
through, the shared window has room where it would have room without them, and no room
where it would have none. -/
def Budget.Unspent (b : Budget) (address : Text) (s s' : Counters) (calls : List BudgetCall) :
    Prop :=
  ∀ u c v, calls = u ++ c :: v → b.admits (u.foldl b.count s) c = true →
    b.hasRoom (u.foldl b.count s) c = b.hasRoom ((b.left address s u).foldl b.count s') c

/-! ## With the refused calls, and without -/

/-- The windows of the addresses are alike. -/
structure Beside (b : Budget) (address : Text) (s s' : Counters) : Prop where
  other : ∀ x, x ≠ address → s.own x = s'.own x
  own : FixedWindow.Alike b.perIp.limit (s.own address) (s'.own address)

section

variable {b : Budget} {address : Text} {s s' : Counters} {c : BudgetCall}

theorem Beside.admits (h : Beside b address s s') : b.admits s c = b.admits s' c := by
  unfold Budget.admits
  by_cases hc : c.address = address
  · rw [hc]
    exact h.own.room_eq _
  · rw [h.other _ hc]

theorem turnsAway_iff :
    b.turnsAway address s c = true ↔ c.address = address ∧ b.admits s c = false := by
  unfold Budget.turnsAway
  rw [Bool.and_eq_true, decide_eq_true_iff, Bool.not_eq_true']

theorem left_cons {cs : List BudgetCall} : b.left address s (c :: cs)
    = if b.turnsAway address s c then b.left address (b.count s c) cs
      else c :: b.left address (b.count s c) cs := rfl

/-- A call that is turned away is not there in the one trace. -/
theorem Beside.turned (h : Beside b address s s') (hc : b.turnsAway address s c = true) :
    Beside b address (b.count s c) s' := by
  obtain ⟨hsame, hadmits⟩ := turnsAway_iff.mp hc
  have hroom : FixedWindow.room b.perIp.limit c.ipAt (s.own address) = false := by
    rw [← hsame]
    exact hadmits
  constructor
  · intro x hx
    show Function.update s.own c.address _ x = s'.own x
    rw [hsame, Function.update_of_ne hx]
    exact h.other x hx
  · show FixedWindow.Alike _ (Function.update s.own c.address _ address) (s'.own address)
    rw [hsame, Function.update_self]
    exact h.own.turned hroom

/-- Any other is there in both. -/
theorem Beside.count (h : Beside b address s s') (hc : b.turnsAway address s c = false) :
    Beside b address (b.count s c) (b.count s' c) := by
  have hhit : FixedWindow.hit (b.perIp.windowSec * 1000) c.ipAt (s.own c.address)
      = FixedWindow.hit (b.perIp.windowSec * 1000) c.ipAt (s'.own c.address) := by
    by_cases haddress : c.address = address
    · have hadmits : b.admits s c = true := by
        unfold Budget.turnsAway at hc
        rwa [decide_eq_true haddress, Bool.true_and, Bool.not_eq_false'] at hc
      unfold Budget.admits at hadmits
      rw [haddress] at hadmits ⊢
      exact h.own.hit_eq hadmits
    · rw [h.other _ haddress]
  have hupdate : ∀ x, (x ≠ c.address → s.own x = s'.own x) →
      (b.count s c).own x = (b.count s' c).own x := by
    intro x hx
    show Function.update s.own c.address _ x = Function.update s'.own c.address _ x
    by_cases hxc : x = c.address
    · rw [hxc, Function.update_self, Function.update_self, hhit]
    · rw [Function.update_of_ne hxc, Function.update_of_ne hxc, hx hxc]
  constructor
  · exact fun x hx => hupdate x (fun _ => h.other x hx)
  · show FixedWindow.Alike _ (Function.update s.own c.address _ address)
      (Function.update s'.own c.address _ address)
    by_cases haddress : address = c.address
    · rw [haddress, Function.update_self, Function.update_self, hhit]
      exact .inl rfl
    · rw [Function.update_of_ne haddress, Function.update_of_ne haddress]
      exact h.own

theorem and_eq_and_iff {p q r : Bool} : (p && q) = (p && r) ↔ (p = true → q = r) := by
  cases p
  · exact iff_of_true rfl (fun h => nomatch h)
  · exact ⟨fun h _ => h, fun h => h rfl⟩

theorem unspent_cons {cs : List BudgetCall} :
    b.Unspent address s s' (c :: cs) ↔ (b.admits s c = true → b.hasRoom s c = b.hasRoom s' c)
      ∧ b.Unspent address (b.count s c)
        (if b.turnsAway address s c then s' else b.count s' c) cs := by
  have hleft : ∀ u, (b.left address s (c :: u)).foldl b.count s'
      = (b.left address (b.count s c) u).foldl b.count
        (if b.turnsAway address s c then s' else b.count s' c) := by
    intro u
    rw [left_cons]
    split
    · rfl
    · rfl
  constructor
  · intro h
    refine ⟨fun hadmits => h [] c cs rfl hadmits, fun u c' v hcs hadmits => ?_⟩
    rw [← hleft]
    exact h (c :: u) c' v (congrArg (c :: ·) hcs) hadmits
  · rintro ⟨hhead, hrest⟩ u c' v hcs hadmits
    cases u with
    | nil =>
      obtain ⟨rfl, rfl⟩ := List.cons.inj hcs
      exact hhead hadmits
    | cons c'' u =>
      obtain ⟨rfl, rfl⟩ := List.cons.inj hcs
      rw [hleft]
      exact hrest u c' v rfl hadmits

/-- **The two traces are answered alike** exactly if the refused calls cost nobody a place. -/
theorem answers_left_iff (h : Beside b address s s') (calls : List BudgetCall) :
    b.answers s' (b.left address s calls) = b.answersLeft address s calls
      ↔ b.Unspent address s s' calls := by
  induction calls generalizing s s' with
  | nil => exact iff_of_true rfl (fun u c v hcs => absurd hcs.symm (by simp))
  | cons c cs ih =>
    rw [unspent_cons]
    unfold Budget.left Budget.answersLeft
    dsimp only
    by_cases hturned : b.turnsAway address s c = true
    · -- it is in neither list, and finds no room in its own window
      have hadmits : b.admits s c = false := (turnsAway_iff.mp hturned).2
      rw [if_pos hturned, if_pos hturned, if_pos hturned, ih (h.turned hturned), hadmits]
      exact (and_iff_right (fun hfalse => nomatch hfalse)).symm
    · have hstays : b.turnsAway address s c = false := Bool.not_eq_true _ ▸ hturned
      rw [if_neg hturned, if_neg hturned, if_neg hturned]
      unfold Budget.answers
      rw [List.cons_eq_cons, ih (h.count hstays), ← h.admits, and_eq_and_iff]
      exact and_congr_left' ⟨fun heq hadmits => (heq hadmits).symm,
        fun heq hadmits => (heq hadmits).symm⟩

end

/-! ## The map of the windows -/

/-- What the map holds of the budget. -/
def Budget.counters (b : Budget) (windows : Windows) : Counters where
  own address := (windows.lookup (namespaced (b.ipKey address))).map Window.win
  all := (windows.lookup (namespaced b.allKey)).map Window.win

/-- **The map and the counters agree**, up to windows that have expired. -/
def Tracks (b : Budget) (now : Time) (windows : Windows) (s : Counters) : Prop :=
  ∃ ideal, Sees now windows ideal ∧ (∀ x, (ideal (b.ipKey x)).map Window.win = s.own x)
    ∧ (ideal b.allKey).map Window.win = s.all

section

variable {b : Budget} {address : Text} {s : Counters} {windows : Windows} {ideal : Ideal}
  {now t : Time}

theorem ipKey_injective {x y : Text} (h : b.ipKey x = b.ipKey y) : x = y :=
  List.append_cancel_left h

theorem ipKey_ne_allKey {x : Text} : b.ipKey x ≠ b.allKey := by
  intro h
  unfold Budget.ipKey Budget.allKey at h
  rw [List.append_assoc] at h
  have hletter : some (105 : UInt16) = some 97 :=
    congrArg (fun l => l[1]?) (List.append_cancel_left h)
  exact absurd hletter (by decide)

theorem Tracks.start (hd : windows.Distinct) (now : Time) :
    Tracks b now windows (b.counters windows) :=
  ⟨fun key => windows.lookup (namespaced key), ⟨hd, fun _ => .inl rfl⟩, fun _ => rfl, rfl⟩

theorem Tracks.later (h : Tracks b now windows s) (ht : now ≤ t) : Tracks b t windows s := by
  obtain ⟨ideal, hsees, hown, hall⟩ := h
  exact ⟨ideal, hsees.later ht, hown, hall⟩

/-- **A write is answered by the two counters.** -/
theorem Tracks.writeBudget (h : Tracks b now windows s) {c : BudgetCall} (hnow : now ≤ c.ipAt)
    (hc : c.ipAt ≤ c.allAt) :
    windows.room (b.ipKey c.address) b.perIp.limit c.ipAt = b.admits s c
      ∧ (writeBudget b c.ip c.ipAt c.allAt windows).2 = (b.admits s c && b.hasRoom s c)
      ∧ Tracks b c.allAt (writeBudget b c.ip c.ipAt c.allAt windows).1 (b.count s c) := by
  obtain ⟨ideal, hsees, hown, hall⟩ := h
  obtain ⟨hipAnswer, hipSees⟩ :=
    (hsees.later hnow).rateLimit (b.ipKey c.address) b.perIp.limit b.perIp.windowSec
  obtain ⟨hallAnswer, hallSees⟩ :=
    (hipSees.later hc).rateLimit b.allKey b.overall.limit b.overall.windowSec
  -- the hits as they are on the limiter that forgets nothing
  obtain ⟨hipAllowed, hipWindow⟩ :=
    ideal_rateLimit_window ideal (b.ipKey c.address) b.perIp.limit b.perIp.windowSec c.ipAt
  rw [hown] at hipAllowed hipWindow
  have hother : ∀ key, key ≠ b.ipKey c.address →
      (ideal.rateLimit (b.ipKey c.address) b.perIp.limit b.perIp.windowSec c.ipAt).1 key
        = ideal key := fun key hkey => ideal_rateLimit_other hkey _ _ _
  generalize hmid : (ideal.rateLimit (b.ipKey c.address) b.perIp.limit b.perIp.windowSec
    c.ipAt).1 = mid at hallAnswer hallSees hipWindow hother
  obtain ⟨hallAllowed, hallWindow⟩ :=
    ideal_rateLimit_window mid b.allKey b.overall.limit b.overall.windowSec c.allAt
  rw [hother _ (fun h => ipKey_ne_allKey h.symm), hall] at hallAllowed hallWindow
  have hroom : (rateLimit (b.ipKey c.address) b.perIp.limit b.perIp.windowSec c.ipAt
      windows).2.allowed = windows.room (b.ipKey c.address) b.perIp.limit c.ipAt :=
    rateLimit_allowed
  refine ⟨?_, ?_, _, hallSees, fun x => ?_, hallWindow⟩
  · rw [hipAnswer, hipAllowed] at hroom
    exact hroom.symm
  · unfold Masadan.writeBudget
    rw [show ipOrUnknown c.ip = c.address from rfl]
    dsimp only
    rw [hallAnswer, hallAllowed, hipAnswer, hipAllowed]
    rfl
  · rw [ideal_rateLimit_other ipKey_ne_allKey]
    show _ = Function.update s.own c.address _ x
    by_cases hx : x = c.address
    · rw [hx, Function.update_self]
      exact hipWindow
    · rw [Function.update_of_ne hx, hother _ (fun h => hx (ipKey_injective h)), hown]

theorem Tracks.refuses (h : Tracks b now windows s) {c : BudgetCall} (hnow : now ≤ c.ipAt)
    (hc : c.ipAt ≤ c.allAt) : b.refuses address windows c = b.turnsAway address s c := by
  unfold Budget.refuses Budget.turnsAway
  rw [(h.writeBudget hnow hc).1]

/-- **A trace is answered by the counters**, and so are the calls that are left of it. -/
theorem Tracks.run (h : Tracks b now windows s) (address : Text) {calls : List BudgetCall}
    (hnow : ∀ c ∈ calls, now ≤ c.ipAt) (hclock : Onward calls) :
    b.results windows calls = b.answers s calls
      ∧ b.without address windows calls = b.left address s calls
      ∧ b.others address windows calls = b.answersLeft address s calls := by
  induction calls generalizing now windows s with
  | nil => exact ⟨rfl, rfl, rfl⟩
  | cons c cs ih =>
    obtain ⟨hreadings, hpairs⟩ := hclock
    obtain ⟨hhead, hrest⟩ := List.pairwise_cons.mp hpairs
    have hc := hreadings c List.mem_cons_self
    obtain ⟨_, hanswer, hnext⟩ := h.writeBudget (hnow c List.mem_cons_self) hc
    obtain ⟨hresults, hwithout, hothers⟩ :=
      ih hnext hhead ⟨fun c' hc' => hreadings c' (List.mem_cons_of_mem _ hc'), hrest⟩
    have hrefuses : b.refuses address windows c = b.turnsAway address s c :=
      h.refuses (hnow c List.mem_cons_self) hc
    refine ⟨?_, ?_, ?_⟩
    · unfold Budget.results Budget.answers
      dsimp only
      rw [hanswer, hresults]
    · unfold Budget.without Budget.left
      dsimp only
      rw [hrefuses, hwithout]
    · unfold Budget.others Budget.answersLeft
      dsimp only
      rw [hrefuses, hothers, hanswer]

/-- What is left of a trace is in order. -/
theorem left_sublist (s : Counters) (calls : List BudgetCall) :
    (b.left address s calls).Sublist calls := by
  induction calls generalizing s with
  | nil => exact List.Sublist.refl _
  | cons c cs ih =>
    rw [left_cons]
    split
    · exact (ih _).cons c
    · exact (ih _).cons_cons c

theorem Onward.sublist {calls left : List BudgetCall} (h : Onward calls)
    (hleft : left.Sublist calls) : Onward left :=
  ⟨fun c hc => h.1 c (hleft.subset hc), h.2.sublist hleft⟩

end

/-- **Whose budget a refused write spends.** Without the calls of an address that were
refused for the address, the other calls of a trace are answered as they were in it exactly
if the refused calls cost nobody a place in the shared window. -/
theorem budget_unspent (b : Budget) (address : Text) (windows : Windows)
    (hd : windows.Distinct) (calls : List BudgetCall) (hclock : Onward calls) :
    b.results windows (b.without address windows calls) = b.others address windows calls
      ↔ b.Unspent address (b.counters windows) (b.counters windows) calls := by
  obtain ⟨now, hnow⟩ : ∃ now, ∀ c ∈ calls, now ≤ c.ipAt := by
    cases calls with
    | nil => exact ⟨0, fun c hc => nomatch hc⟩
    | cons c cs =>
      refine ⟨c.ipAt, List.forall_mem_cons.mpr ⟨le_rfl, fun c' hc' => ?_⟩⟩
      exact (hclock.1 c List.mem_cons_self).trans ((List.pairwise_cons.mp hclock.2).1 c' hc')
  have hstart : Tracks b now windows (b.counters windows) := .start hd now
  obtain ⟨_, hwithout, hothers⟩ := hstart.run address hnow hclock
  have hleft : (b.left address (b.counters windows) calls).Sublist calls := left_sublist _ _
  obtain ⟨hresults, _, _⟩ := hstart.run address
    (fun c hc => hnow c (hleft.subset hc)) (hclock.sublist hleft)
  rw [hwithout, hothers, hresults]
  exact answers_left_iff ⟨fun _ _ => rfl, .inl rfl⟩ calls

/-- What a caller without a session may have written of `POST /api/orders`. -/
def noSession : Budget := ⟨text "order:nosession", ⟨20, 600⟩, ⟨200, 600⟩⟩

/-- Calls from an address at one time. -/
def callsFrom (n : ℕ) (ip : Text) : List BudgetCall := List.replicate n ⟨ip, 0, 0⟩

/-- One call more than the budget of one address, and one from another address. -/
theorem budget_unspent_two :
    noSession.results [] (noSession.without (text "1.1.1.1") []
        (callsFrom 21 (text "1.1.1.1") ++ callsFrom 1 (text "2.2.2.2")))
        = noSession.others (text "1.1.1.1") []
          (callsFrom 21 (text "1.1.1.1") ++ callsFrom 1 (text "2.2.2.2"))
      ↔ noSession.Unspent (text "1.1.1.1") (noSession.counters []) (noSession.counters [])
        (callsFrom 21 (text "1.1.1.1") ++ callsFrom 1 (text "2.2.2.2")) :=
  budget_unspent noSession (text "1.1.1.1") [] List.nodup_nil _ (by decide)

/-- One address spends all of it. -/
theorem budget_unspent_fails :
    ¬ noSession.results [] (noSession.without (text "1.1.1.1") []
        (callsFrom 200 (text "1.1.1.1") ++ callsFrom 1 (text "2.2.2.2")))
      = noSession.others (text "1.1.1.1") []
        (callsFrom 200 (text "1.1.1.1") ++ callsFrom 1 (text "2.2.2.2")) := by
  decide +kernel

end Masadan
