import Masadan.Printed
import Masadan.TicketBytes

/-!
# Paper behind a shim

`bridge/win-usb-print.mjs`: a printer on the end of a USB cable has no socket to open, so a
shim listens in its place. The agent connects, sends the bytes of a ticket and closes its
side. There is no length and no framing: the end of the stream is the end of the ticket. The
shim then copies what has come to the printer's queue, and says on the same socket how that
went.

What comes through a socket comes in pieces, late, or not at all. An agent that has given up,
or has died, may leave a stream that ends in the middle of a ticket; the shim cannot tell,
and prints what it has. What it says then nobody hears. So what the server knows is right all
the same (`sent_only_queued`): a row says `sent` only when the queue has taken the bytes of
its ticket, whole.

Of the printer's queue is kept what it has taken; what becomes of that is not seen. The reply
is given as text.
-/

namespace Masadan

/-! ## The shim -/

/-- Where the shim stands with a connection. -/
inductive ShimState where
  | receiving (chunks : List (List UInt8))
  /-- The bytes are written to a file, and copied to the queue. -/
  | copying (bytes : List UInt8)
  | replied
  /-- The connection has failed, or the shim has died. -/
  | broken

/-- `replace(/\s+/g, " ")`; `after` says that a blank has just been written. -/
def squeeze (after : Bool) : Text → Text
  | [] => []
  | u :: rest =>
    if isSpace u then
      if after then squeeze true rest else 0x20 :: squeeze true rest
    else u :: squeeze false rest

/-- `sock.on("end")`: what it makes of the bytes, and what it says. -/
def shimEnd (dryRun : Bool) (chunks : List (List UInt8)) : ShimState × Text :=
  let bytes := chunks.flatten
  if bytes.length = 0 then (.replied, text "ERR empty ticket\n")
  else if dryRun then (.replied, text "OK dry-run" ++ text "\n")
  else (.copying bytes, [])

/-- What it says when the copy is through, or has failed. -/
def shimReply : Except Text Unit → Text
  | .ok _ => text "OK" ++ text "\n"
  | .error message => squeeze false (text "ERR " ++ message) ++ text "\n"

/-- **A connection**: the bytes the agent has to send, where the shim stands, what it has
said, and what the queue has taken. -/
structure Wire where
  agent : ℕ
  sent : List UInt8
  shim : ShimState
  said : Text
  taken : Option (List UInt8)

/-- A connection just opened. -/
def Wire.opened (agent : ℕ) (bytes : List UInt8) : Wire := ⟨agent, bytes, .receiving [], [], none⟩

/-- The next bytes arrive, so many. -/
def Wire.arrive (wire : Wire) (k : ℕ) : Wire :=
  match wire.shim with
  | .receiving chunks =>
    { wire with shim := .receiving (chunks ++ [(wire.sent.drop chunks.flatten.length).take k]) }
  | _ => wire

/-- The stream ends: with the last byte, or where it was cut. -/
def Wire.ended (dryRun : Bool) (wire : Wire) (cut : Bool) : Wire :=
  match wire.shim with
  | .receiving chunks =>
    if chunks.flatten = wire.sent ∨ cut = true then
      { wire with shim := (shimEnd dryRun chunks).1, said := (shimEnd dryRun chunks).2 }
    else wire
  | _ => wire

/-- The copy is through. -/
def Wire.copied (wire : Wire) (result : Except Text Unit) : Wire :=
  match wire.shim with
  | .copying bytes =>
    { wire with
      shim := .replied
      said := shimReply result
      taken := match result with
        | .ok _ => some bytes
        | .error _ => wire.taken }
  | _ => wire

/-! ## The server, its agents, and their printers -/

/-- **The server with its agents, each in front of a shim.** `line` is the connection an agent
is printing over. -/
structure Floor where
  net : Net
  line : ℕ → Option ℕ
  wires : List Wire

/-- What happens next. -/
inductive FloorAction where
  /-- The server, the wire between it and the agents, and the agents go on. What a socket
  delivers is told apart. -/
  | net (a : NetAction)
  /-- `createConnection` succeeds. -/
  | dial (i : ℕ)
  | arrive (n k : ℕ)
  | ended (n : ℕ)
  | copied (n : ℕ) (result : Except Text Unit)
  | broke (n : ℕ)
  /-- An agent gets the next of what was said to it, so much. -/
  | heard (i k : ℕ)

namespace Floor

def start (w₀ : World) : Floor := ⟨Net.start w₀, fun _ => none, []⟩

/-- Whether an agent is at a print. -/
def atPrint (s : Net) (i : ℕ) : Bool :=
  match s.agents i with
  | .printing _ _ _ => true
  | _ => false

/-- The print an agent is at, if it is not settled. -/
def openPrint (s : Floor) (i : ℕ) : Option (Handed × Printing) :=
  match s.net.agents i with
  | .printing d p _ => if p.settled.isNone then some (d, p) else none
  | _ => none

/-- Somebody is still at the other end of the connection. -/
def live (s : Floor) (n : ℕ) (wire : Wire) : Bool :=
  s.line wire.agent == some n && (s.openPrint wire.agent).isSome

/-- One connection goes on. -/
def onWire (s : Floor) (n : ℕ) (f : Wire → Wire) : Floor :=
  match s.wires[n]? with
  | none => s
  | some wire => { s with wires := s.wires.set n (f wire) }

/-- The net goes on. An agent lets go of its connection with its print. -/
def onNet (config : ℕ → AgentConfig) (s : Floor) (a : NetAction) : Floor :=
  { s with
    net := s.net.act config a
    line := fun i => if atPrint (s.net.act config a) i then s.line i else none }

def act (config : ℕ → AgentConfig) (bytes : Payload → List UInt8) (dryRun : Bool) (s : Floor) :
    FloorAction → Floor
  | .net (.socket _ (.data _)) => s
  | .net a => s.onNet config a
  | .dial i =>
    match s.line i, s.openPrint i with
    | none, some (d, _) => { s with
        line := Function.update s.line i (some s.wires.length)
        wires := s.wires ++ [Wire.opened i (bytes d.payload)] }
    | _, _ => s
  | .arrive n k => s.onWire n (fun wire => wire.arrive k)
  -- nobody cuts the stream of a print that is awaited
  | .ended n => s.onWire n (fun wire => wire.ended dryRun (!s.live n wire))
  | .copied n result => s.onWire n (fun wire => wire.copied result)
  | .broke n => s.onWire n (fun wire => { wire with shim := .broken })
  | .heard i k =>
    match s.openPrint i, (s.line i).bind (fun n => s.wires[n]?) with
    | some (_, p), some wire =>
      s.onNet config (.socket i (.data ((wire.said.drop p.reply.length).take k)))
    | _, _ => s

end Floor

/-- A run, from a world in which no agent has begun. -/
def usbRun (config : ℕ → AgentConfig) (bytes : Payload → List UInt8) (dryRun : Bool)
    (w₀ : World) (acts : List FloorAction) : Floor :=
  acts.foldl (Floor.act config bytes dryRun) (Floor.start w₀)

theorem Floor.openPrint_eq_some {s : Floor} {i : ℕ} {d : Handed} {p : Printing} :
    s.openPrint i = some (d, p)
      ↔ ∃ rest, s.net.agents i = .printing d p rest ∧ p.settled = none := by
  unfold Floor.openPrint
  cases ha : s.net.agents i with
  | printing d' p' rest' =>
    dsimp only
    split
    · next hnone =>
      constructor
      · rintro ⟨⟩
        exact ⟨rest', rfl, Option.isNone_iff_eq_none.mp hnone⟩
      · rintro ⟨rest, heq, _⟩
        cases heq
        rfl
    · next hsome =>
      constructor
      · rintro ⟨⟩
      · rintro ⟨rest, heq, hnone⟩
        cases heq
        exact absurd (Option.isNone_iff_eq_none.mpr hnone) hsome
  | idle | fetching | acking rest =>
    constructor
    · rintro ⟨⟩
    · rintro ⟨rest, heq, _⟩
      cases heq

/-! ## What is said -/

/-- An answer that is not blank at its front begins with `OK` if it does when it is trimmed. -/
theorem startsOK_of_trim {u : UInt16} {rest : Text} (hu : isSpace u = false)
    (h : startsOK (Text.trim (u :: rest)) = true) : startsOK (u :: rest) = true := by
  unfold startsOK at h ⊢
  unfold Text.trim at h
  rw [List.dropWhile_cons_of_neg (by rw [hu]; exact Bool.false_ne_true)] at h
  exact List.isPrefixOf_iff_prefix.mpr
    ((List.isPrefixOf_iff_prefix.mp h).trans (List.rdropWhile_prefix _ _))

/-- **What a shim says** is nothing, or an error, or that the queue has taken the ticket. -/
def Says (wire : Wire) : Prop :=
  wire.said = [] ∨ (∃ rest, wire.said = 0x45 :: rest)
    ∨ (∃ rest, wire.said = 0x4f :: rest) ∧ ∃ b, wire.taken = some b

/-- An answer heard in part says `OK` only if the queue has taken the ticket. -/
theorem Says.ok {wire : Wire} (h : Says wire) {reply : Text} (hreply : reply <+: wire.said)
    (hok : startsOK reply.trim = true) : ∃ b, wire.taken = some b := by
  cases reply with
  | nil => cases hok
  | cons u rest =>
    obtain ⟨later, hlater⟩ := hreply
    rcases h with hnone | ⟨_, herr⟩ | ⟨_, htaken⟩
    · rw [hnone] at hlater
      cases hlater
    · rw [herr] at hlater
      cases hlater
      have hstarts := startsOK_of_trim (u := 0x45) rfl hok
      cases hstarts
    · exact htaken

/-- **What is true of a connection**; `live` says that its agent waits for the answer. -/
structure WireOk (wire : Wire) (live : Prop) : Prop where
  receiving : ∀ chunks, wire.shim = .receiving chunks →
    chunks.flatten <+: wire.sent ∧ wire.said = [] ∧ wire.taken = none
  copying : ∀ b, wire.shim = .copying b → b ≠ [] ∧ b <+: wire.sent ∧ (live → b = wire.sent)
    ∧ wire.said = [] ∧ wire.taken = none
  taken : ∀ b, wire.taken = some b → b ≠ [] ∧ b <+: wire.sent ∧ (live → b = wire.sent)
  said : Says wire

section

variable {wire : Wire} {live live' : Prop}

theorem WireOk.mono (h : WireOk wire live) (hlive : live' → live) : WireOk wire live' where
  receiving := h.receiving
  copying b hb := ⟨(h.copying b hb).1, (h.copying b hb).2.1,
    fun hl => (h.copying b hb).2.2.1 (hlive hl), (h.copying b hb).2.2.2⟩
  taken b hb := ⟨(h.taken b hb).1, (h.taken b hb).2.1, fun hl => (h.taken b hb).2.2 (hlive hl)⟩
  said := h.said

theorem WireOk.opened (i : ℕ) (bytes : List UInt8) : WireOk (Wire.opened i bytes) live where
  receiving chunks h := by
    cases h
    exact ⟨List.nil_prefix, rfl, rfl⟩
  copying b h := by cases h
  taken b h := by cases h
  said := .inl rfl

/-- The next bytes. -/
theorem take_next {α : Type} {got sent : List α} (h : got <+: sent) (k : ℕ) :
    got ++ (sent.drop got.length).take k <+: sent := by
  obtain ⟨rest, rfl⟩ := h
  rw [List.drop_left]
  exact (List.prefix_append_right_inj got).mpr (List.take_prefix k rest)

theorem WireOk.arrive (h : WireOk wire live) (k : ℕ) : WireOk (wire.arrive k) live := by
  unfold Wire.arrive
  split
  · next chunks hshim =>
    obtain ⟨hgot, hsilent⟩ := h.receiving chunks hshim
    refine ⟨fun chunks' heq => ?_, fun b hb => (by cases hb), h.taken, h.said⟩
    cases heq
    rw [List.flatten_append, List.flatten_singleton]
    exact ⟨take_next hgot k, hsilent⟩
  · exact h

/-- The stream ends; nobody waits for the answer if it was cut. -/
theorem WireOk.ended (h : WireOk wire live) {cut : Bool} (hcut : cut = true → ¬ live) :
    WireOk (wire.ended false cut) live := by
  unfold Wire.ended
  split
  · next chunks hshim =>
    obtain ⟨hgot, _, htaken⟩ := h.receiving chunks hshim
    split
    · next hend =>
      have hwhole : live → chunks.flatten = wire.sent := by
        intro hlive
        rcases hend with hend | hend
        · exact hend
        · exact absurd hlive (hcut hend)
      unfold shimEnd
      dsimp only
      by_cases hempty : chunks.flatten.length = 0
      · rw [if_pos hempty]
        exact ⟨fun _ heq => (by cases heq), fun _ heq => (by cases heq), h.taken, .inr (.inl ⟨_, rfl⟩)⟩
      · rw [if_neg hempty, if_neg Bool.false_ne_true]
        refine ⟨fun _ heq => (by cases heq), fun b heq => ?_, h.taken, .inl rfl⟩
        cases heq
        exact ⟨fun hnil => hempty (by rw [hnil]; rfl), hgot, hwhole, rfl, htaken⟩
    · exact h
  · exact h

theorem WireOk.copied (h : WireOk wire live) (result : Except Text Unit) :
    WireOk (wire.copied result) live := by
  unfold Wire.copied
  split
  · next bytes hshim =>
    obtain ⟨hne, hprefix, hwhole, _⟩ := h.copying bytes hshim
    cases result with
    | ok _ =>
      refine ⟨fun _ heq => (by cases heq), fun _ heq => (by cases heq), fun b heq => ?_,
        .inr (.inr ⟨⟨_, rfl⟩, _, rfl⟩)⟩
      cases heq
      exact ⟨hne, hprefix, hwhole⟩
    | error message =>
      exact ⟨fun _ heq => (by cases heq), fun _ heq => (by cases heq), h.taken, .inr (.inl ⟨_, rfl⟩)⟩
  · exact h

theorem WireOk.broke (h : WireOk wire live) : WireOk { wire with shim := .broken } live :=
  ⟨fun _ heq => (by cases heq), fun _ heq => (by cases heq), h.taken, h.said⟩

end

/-- **How a connection goes on**: what was said stays said, and what was taken, taken. -/
structure Goes (wire wire' : Wire) : Prop where
  agent : wire'.agent = wire.agent
  sent : wire'.sent = wire.sent
  said : wire.said <+: wire'.said
  taken : ∀ b, wire.taken = some b → wire'.taken = some b

section

variable {wire : Wire} {live : Prop}

theorem Goes.arrive (wire : Wire) (k : ℕ) : Goes wire (wire.arrive k) := by
  unfold Wire.arrive
  split
  · exact ⟨rfl, rfl, List.prefix_rfl, fun _ h => h⟩
  · exact ⟨rfl, rfl, List.prefix_rfl, fun _ h => h⟩

theorem Goes.ended (h : WireOk wire live) (dryRun cut : Bool) :
    Goes wire (wire.ended dryRun cut) := by
  unfold Wire.ended
  split
  · next chunks hshim =>
    split
    · refine ⟨rfl, rfl, ?_, fun _ h => h⟩
      rw [(h.receiving chunks hshim).2.1]
      exact List.nil_prefix
    · exact ⟨rfl, rfl, List.prefix_rfl, fun _ h => h⟩
  · exact ⟨rfl, rfl, List.prefix_rfl, fun _ h => h⟩

theorem Goes.copied (h : WireOk wire live) (result : Except Text Unit) :
    Goes wire (wire.copied result) := by
  unfold Wire.copied
  split
  · next bytes hshim =>
    obtain ⟨_, _, _, hsilent, hnone⟩ := h.copying bytes hshim
    refine ⟨rfl, rfl, ?_, fun b hb => ?_⟩
    · rw [hsilent]
      exact List.nil_prefix
    · rw [hnone] at hb
      cases hb
  · exact ⟨rfl, rfl, List.prefix_rfl, fun _ h => h⟩

end

/-! ## The floor -/

/-- **An agent and its connection**: it has one only while it prints; the bytes that are sent
are those of the delivery it is at, and it has heard of what was said the beginning. -/
def SeatOk (bytes : Payload → List UInt8) (wires : List Wire) (i : ℕ) (line : Option ℕ) :
    AgentState → Prop
  | .printing d p _ =>
    match line with
    | none => p.reply = []
    | some n => ∃ wire, wires[n]? = some wire ∧ wire.agent = i ∧ wire.sent = bytes d.payload
        ∧ p.reply <+: wire.said
  | _ => line = none

/-- **What is true of every run.** -/
structure FloorOk (config : ℕ → AgentConfig) (bytes : Payload → List UInt8) (w₀ : World)
    (s : Floor) : Prop where
  net : NetOk config w₀ s.net
  wires : ∀ n wire, s.wires[n]? = some wire → WireOk wire (s.live n wire = true)
  seats : ∀ i, SeatOk bytes s.wires i (s.line i) (s.net.agents i)
  /-- What an agent took for printed the queue has taken. -/
  paper : ∀ r ∈ s.net.prints, (config r.agent).printerAck = true →
    ∃ wire ∈ s.wires, wire.sent = bytes r.payload ∧ wire.taken = some wire.sent

section

variable {s s' : Net} {j : ℕ}

/-- One agent moves; the others are where they were. -/
theorem agents_set {b : AgentState} (h : s'.agents = Function.update s.agents j b) (i : ℕ) :
    s'.agents i = s.agents i ∨ j = i ∧ s'.agents i = b := by
  rw [h]
  by_cases hj : i = j
  · subst hj
    exact .inr ⟨rfl, Function.update_self _ _ _⟩
  · exact .inl (Function.update_of_ne hj _ _)

/-- One agent moves, to no print. -/
theorem agents_quiet {b : AgentState} (h : s'.agents = Function.update s.agents j b)
    (hb : ∀ d p rest, b ≠ .printing d p rest) (i : ℕ) :
    s'.agents i = s.agents i ∨ Floor.atPrint s' i = false := by
  refine (agents_set h i).imp_right (fun hthere => ?_)
  unfold Floor.atPrint
  rw [hthere.2]
  cases b with
  | printing d p rest => exact absurd rfl (hb d p rest)
  | _ => rfl

/-- One agent turns to the next of its batch. -/
theorem agents_next {batch : List Handed}
    (h : s'.agents = Function.update s.agents j (.next batch)) (hj : Floor.atPrint s j = false)
    (i : ℕ) :
    s'.agents i = s.agents i ∨ Floor.atPrint s' i = false
      ∨ Floor.atPrint s i = false ∧ ∃ d rest, s'.agents i = .printing d Printing.opened rest := by
  refine (agents_set h i).imp_right ?_
  rintro ⟨rfl, hthere⟩
  cases batch with
  | nil =>
    left
    unfold Floor.atPrint
    rw [hthere]
    rfl
  | cons d rest => exact .inr ⟨hj, d, rest, hthere⟩

theorem not_atPrint (hj : s.agents j = .fetching ∨ ∃ rest, s.agents j = .acking rest) :
    Floor.atPrint s j = false := by
  unfold Floor.atPrint
  rcases hj with hj | ⟨rest, hj⟩
  · rw [hj]
  · rw [hj]

end

/-- What an action of the net does to an agent. -/
theorem agent_act (config : ℕ → AgentConfig) (s : Net) (a : NetAction) (i : ℕ) :
    (s.act config a).agents i = s.agents i
      ∨ (∃ d p rest e, a = .socket i e ∧ s.agents i = .printing d p rest
        ∧ (s.act config a).agents i = .printing d (p.on (config i) e) rest)
      ∨ Floor.atPrint (s.act config a) i = false
      ∨ Floor.atPrint s i = false ∧ ∃ d rest,
        (s.act config a).agents i = .printing d Printing.opened rest := by
  have hquiet : ∀ (s' : Net) (j : ℕ) (b : AgentState), s'.agents = Function.update s.agents j b →
      (∀ d p rest, b ≠ .printing d p rest) →
      s'.agents i = s.agents i
        ∨ (∃ d p rest e, a = .socket i e ∧ s.agents i = .printing d p rest
          ∧ s'.agents i = .printing d (p.on (config i) e) rest)
        ∨ Floor.atPrint s' i = false
        ∨ Floor.atPrint s i = false ∧ ∃ d rest,
          s'.agents i = .printing d Printing.opened rest :=
    fun s' j b hs' hb => (agents_quiet hs' hb i).imp_right (fun h => .inr (.inl h))
  cases a with
  | server a =>
    left
    show (Net.agents (if isAckArrival a then s else _)) i = s.agents i
    split
    · rfl
    · rfl
  | deliver n =>
    left
    dsimp only [Net.act]
    split
    · rfl
    · rfl
  | tick j =>
    dsimp only [Net.act]
    split
    · exact hquiet _ j _ rfl (fun _ _ _ h => by cases h)
    · exact .inl rfl
  | fetched j n =>
    dsimp only [Net.act]
    split
    · next hj _ => exact (agents_next rfl (not_atPrint (.inl hj)) i).imp_right .inr
    · exact .inl rfl
  | failed j =>
    dsimp only [Net.act]
    split
    · exact hquiet _ j _ rfl (fun _ _ _ h => by cases h)
    · exact .inl rfl
  | socket j e =>
    dsimp only [Net.act]
    split
    · next d p rest hj =>
      have hset : Net.agents { s.setAgent j (.printing d (p.on (config j) e) rest) with
          prints := s.recordPrint j d p (p.on (config j) e) }
          = Function.update s.agents j (.printing d (p.on (config j) e) rest) := rfl
      rcases agents_set hset i with hsame | ⟨rfl, hthere⟩
      · exact .inl hsame
      · exact .inr (.inl ⟨d, p, rest, e, rfl, hj, hthere⟩)
    · exact .inl rfl
  | report j =>
    dsimp only [Net.act]
    split
    · exact hquiet _ j _ rfl (fun _ _ _ h => by cases h)
    · exact .inl rfl
  | acked j =>
    dsimp only [Net.act]
    split
    · next rest hj => exact (agents_next rfl (not_atPrint (.inr ⟨rest, hj⟩)) i).imp_right .inr
    · exact .inl rfl
  | crash j =>
    exact hquiet _ j _ rfl (fun _ _ _ h => by cases h)

/-- What an action of the net records as printed. -/
theorem prints_act {config : ℕ → AgentConfig} {s : Net} {a : NetAction} {r : PrintRecord}
    (hr : r ∈ (s.act config a).prints) : r ∈ s.prints
      ∨ ∃ i d p rest e, a = .socket i e ∧ s.agents i = .printing d p rest ∧ p.settled = none
        ∧ (p.on (config i) e).settled = some none
        ∧ r = ⟨i, d.id, d.payload, (p.on (config i) e).reply⟩ := by
  cases a with
  | server a =>
    left
    replace hr : r ∈ Net.prints (if isAckArrival a then s else _) := hr
    split at hr
    · exact hr
    · exact hr
  | socket i e =>
    dsimp only [Net.act] at hr
    split at hr
    · next d p rest hi =>
      replace hr : r ∈ s.recordPrint i d p (p.on (config i) e) := hr
      unfold Net.recordPrint at hr
      split at hr
      · next hnow =>
        rcases List.mem_cons.mp hr with rfl | hr
        · exact .inr ⟨i, d, p, rest, e, rfl, hi, hnow.1, hnow.2, rfl⟩
        · exact .inl hr
      · exact .inl hr
    · exact .inl hr
  | deliver n | tick j | fetched j n | failed j | report j | acked j =>
    left
    dsimp only [Net.act] at hr
    split at hr
    · exact hr
    · exact hr
  | crash j => exact .inl hr

section

variable {config : ℕ → AgentConfig} {bytes : Payload → List UInt8} {w₀ : World} {s : Floor}

/-- An agent that does not print has no connection. -/
theorem FloorOk.no_line (h : FloorOk config bytes w₀ s) {i : ℕ}
    (hi : Floor.atPrint s.net i = false) : s.line i = none := by
  have hseat := h.seats i
  unfold Floor.atPrint at hi
  cases ha : s.net.agents i with
  | printing d p rest =>
    rw [ha] at hi
    cases hi
  | idle | fetching | acking rest =>
    rw [ha] at hseat
    exact hseat

/-- **The net goes on.** Whoever is waited for after was waited for before. -/
theorem FloorOk.live_net (h : FloorOk config bytes w₀ s) {a : NetAction} {n : ℕ} {wire : Wire}
    (hlive : (s.onNet config a).live n wire = true) : s.live n wire = true := by
  unfold Floor.live at hlive ⊢
  rw [Bool.and_eq_true, beq_iff_eq] at hlive ⊢
  obtain ⟨hline, hopen⟩ := hlive
  replace hline : (if Floor.atPrint (s.net.act config a) wire.agent then s.line wire.agent
    else none) = some n := hline
  split at hline
  · next hat =>
    refine ⟨hline, ?_⟩
    obtain ⟨⟨d', p'⟩, hopen⟩ := Option.isSome_iff_exists.mp hopen
    obtain ⟨rest', hagent, hsettled⟩ := Floor.openPrint_eq_some.mp hopen
    replace hagent : (s.net.act config a).agents wire.agent = .printing d' p' rest' := hagent
    rcases agent_act config s.net a wire.agent with hsame | ⟨d, p, rest, e, _, hbefore, hafter⟩
      | hnot | ⟨hnot, _⟩
    · rw [hsame] at hagent
      exact Option.isSome_iff_exists.mpr ⟨_, Floor.openPrint_eq_some.mpr ⟨rest', hagent, hsettled⟩⟩
    · rw [hafter] at hagent
      cases hagent
      refine Option.isSome_iff_exists.mpr ⟨_, Floor.openPrint_eq_some.mpr ⟨_, hbefore, ?_⟩⟩
      cases hp : p.settled with
      | none => rfl
      | some x =>
        rw [Printing.on_settled hp] at hsettled
        cases hsettled
    · rw [hat] at hnot
      cases hnot
    · rw [h.no_line hnot] at hline
      cases hline
  · cases hline

/-- **The net goes on**, with what the agents hear of what was said. -/
theorem FloorOk.onNet (h : FloorOk config bytes w₀ s) {a : NetAction}
    (hnet : NetOk config w₀ (s.net.act config a))
    (hseat : ∀ i e d p rest, a = .socket i e → s.net.agents i = .printing d p rest →
      SeatOk bytes s.wires i (s.line i) (.printing d (p.on (config i) e) rest)) :
    FloorOk config bytes w₀ (s.onNet config a) where
  net := hnet
  wires n wire hwire := (h.wires n wire hwire).mono h.live_net
  seats i := by
    show SeatOk bytes s.wires i (if Floor.atPrint (s.net.act config a) i then s.line i else none)
      ((s.net.act config a).agents i)
    by_cases hat : Floor.atPrint (s.net.act config a) i = true
    · rw [if_pos hat]
      rcases agent_act config s.net a i with hsame | ⟨d, p, rest, e, rfl, hbefore, hafter⟩
        | hnot | ⟨hnot, d, rest, hafter⟩
      · rw [hsame]
        exact h.seats i
      · rw [hafter]
        exact hseat i e d p rest rfl hbefore
      · rw [hat] at hnot
        cases hnot
      · rw [hafter, h.no_line hnot]
        rfl
    · rw [if_neg hat]
      unfold Floor.atPrint at hat
      cases hagent : (s.net.act config a).agents i with
      | printing d p rest =>
        rw [hagent] at hat
        exact absurd rfl hat
      | idle | fetching | acking rest => rfl
  paper r hr hack := by
    rcases prints_act hr with hr | ⟨i, d, p, rest, e, rfl, hi, hbefore, hnow, rfl⟩
    · exact h.paper r hr hack
    · -- the answer was heard over the agent's connection
      have hok := Printing.resolved_ok hack hbefore hnow
      have hseat := hseat i e d p rest rfl hi
      unfold SeatOk at hseat
      cases hline : s.line i with
      | none =>
        rw [hline] at hseat
        dsimp only at hseat
        rw [hseat] at hok
        cases hok
      | some n =>
        rw [hline] at hseat
        obtain ⟨wire, hwire, hagent, hsent, hheard⟩ := hseat
        have hwireOk := h.wires n wire hwire
        obtain ⟨b, hb⟩ := hwireOk.said.ok hheard hok
        have hlive : s.live n wire = true := by
          unfold Floor.live
          rw [hagent, hline, Floor.openPrint_eq_some.mpr ⟨rest, hi, hbefore⟩]
          simp
        exact ⟨wire, List.mem_of_getElem? hwire, hsent, hb.trans
          (congrArg some ((hwireOk.taken b hb).2.2 hlive))⟩

/-- The connections when one of them goes on. -/
theorem wires_set {wires : List Wire} {n : ℕ} {wire : Wire} (hwire : wires[n]? = some wire)
    (wire' : Wire) (m : ℕ) :
    (wires.set n wire')[m]? = if n = m then some wire' else wires[m]? := by
  have hlt := (List.getElem?_eq_some_iff.mp hwire).1
  rw [List.getElem?_set]
  by_cases hm : n = m
  · rw [if_pos hm, if_pos hm, if_pos (hm ▸ hlt)]
  · rw [if_neg hm, if_neg hm]

/-- An agent does not mind that a connection goes on. -/
theorem SeatOk.goes {wires : List Wire} {i n : ℕ} {line : Option ℕ} {a : AgentState}
    {wire wire' : Wire} (h : SeatOk bytes wires i line a) (hwire : wires[n]? = some wire)
    (hgoes : Goes wire wire') : SeatOk bytes (wires.set n wire') i line a := by
  unfold SeatOk at h ⊢
  cases a with
  | printing d p rest =>
    dsimp only at h ⊢
    cases line with
    | none => exact h
    | some m =>
      obtain ⟨seat, hm, hagent, hsent, hheard⟩ := h
      dsimp only
      rw [wires_set hwire]
      by_cases hnm : n = m
      · subst hnm
        cases hwire.symm.trans hm
        rw [if_pos rfl]
        exact ⟨wire', rfl, hgoes.agent.trans hagent, hgoes.sent.trans hsent,
          hheard.trans hgoes.said⟩
      · rw [if_neg hnm]
        exact ⟨seat, hm, hagent, hsent, hheard⟩
  | idle | fetching | acking rest => exact h

/-- A connection goes on. -/
theorem FloorOk.onWire (h : FloorOk config bytes w₀ s) {n : ℕ} {f : Wire → Wire}
    (hf : ∀ wire, s.wires[n]? = some wire →
      WireOk (f wire) (s.live n wire = true) ∧ Goes wire (f wire)) :
    FloorOk config bytes w₀ (s.onWire n f) := by
  unfold Floor.onWire
  cases hwire : s.wires[n]? with
  | none => exact h
  | some wire =>
    obtain ⟨hok, hgoes⟩ := hf wire hwire
    have hlookup := wires_set hwire (f wire)
    have hlive : s.live n (f wire) = s.live n wire := by
      unfold Floor.live
      rw [hgoes.agent]
    refine ⟨h.net, fun m wire' hm => ?_, fun i => (h.seats i).goes hwire hgoes,
      fun r hr hack => ?_⟩
    · replace hm : (s.wires.set n (f wire))[m]? = some wire' := hm
      show WireOk wire' (s.live m wire' = true)
      rw [hlookup] at hm
      by_cases hnm : n = m
      · subst hnm
        rw [if_pos rfl] at hm
        cases hm
        rw [hlive]
        exact hok
      · rw [if_neg hnm] at hm
        exact h.wires m wire' hm
    · obtain ⟨wire', hmem, hsent, htaken⟩ := h.paper r hr hack
      obtain ⟨m, hm⟩ := List.mem_iff_getElem?.mp hmem
      by_cases hnm : n = m
      · subst hnm
        cases hwire.symm.trans hm
        refine ⟨f wire, List.mem_of_getElem? ((hlookup n).trans (if_pos rfl)),
          hgoes.sent.trans hsent, ?_⟩
        rw [hgoes.taken _ htaken, hgoes.sent]
      · exact ⟨wire', List.mem_of_getElem? (((hlookup m).trans (if_neg hnm)).trans hm), hsent,
          htaken⟩

/-- What the socket says besides is no answer. -/
theorem Printing.on_reply {config : AgentConfig} (p : Printing) {e : SocketEvent}
    (he : ∀ chunk, e ≠ .data chunk) : (p.on config e).reply = p.reply := by
  cases e with
  | data chunk => exact absurd rfl (he chunk)
  | timeout | error message => exact Printing.finish_reply _ _
  | flushed =>
    unfold Printing.on
    dsimp only
    split
    · rfl
    · exact Printing.finish_reply _ _
  | ended =>
    unfold Printing.on
    dsimp only
    split
    · exact Printing.finish_reply _ _
    · split
      · exact Printing.finish_reply _ _
      · exact Printing.finish_reply _ _

/-- The net goes on, and no agent hears more. -/
theorem FloorOk.silent (h : FloorOk config bytes w₀ s) {a : NetAction}
    (ha : ∀ i chunk, a ≠ .socket i (.data chunk)) : FloorOk config bytes w₀ (s.onNet config a) := by
  refine h.onNet (h.net.act a) (fun i e d p rest heq hi => ?_)
  have hseat := h.seats i
  rw [hi] at hseat
  unfold SeatOk at hseat ⊢
  dsimp only at hseat ⊢
  rw [Printing.on_reply p (fun chunk hdata => ha i chunk (by rw [heq, hdata]))]
  exact hseat

/-- An agent hears of what was said. -/
theorem FloorOk.heard (h : FloorOk config bytes w₀ s) {i n : ℕ} {d : Handed} {p : Printing}
    {wire : Wire} (hopen : s.openPrint i = some (d, p)) (hline : s.line i = some n)
    (hwire : s.wires[n]? = some wire) (k : ℕ) : FloorOk config bytes w₀
      (s.onNet config (.socket i (.data ((wire.said.drop p.reply.length).take k)))) := by
  obtain ⟨rest, hi, _⟩ := Floor.openPrint_eq_some.mp hopen
  refine h.onNet (h.net.act _) (fun j e d' p' rest' heq hj => ?_)
  cases heq
  rw [hi] at hj
  cases hj
  have hseat := h.seats i
  rw [hi] at hseat
  unfold SeatOk at hseat ⊢
  rw [hline] at hseat ⊢
  obtain ⟨wire', hthere, hagent, hsent, hreply⟩ := hseat
  cases hwire.symm.trans hthere
  exact ⟨wire, hwire, hagent, hsent, take_next hreply k⟩

/-- An agent at a print gets a connection. -/
theorem FloorOk.dial (h : FloorOk config bytes w₀ s) {i : ℕ} {d : Handed} {p : Printing}
    (hline : s.line i = none) (hopen : s.openPrint i = some (d, p)) : FloorOk config bytes w₀
      { s with
        line := Function.update s.line i (some s.wires.length)
        wires := s.wires ++ [Wire.opened i (bytes d.payload)] } := by
  obtain ⟨rest, hi, _⟩ := Floor.openPrint_eq_some.mp hopen
  have hkept : ∀ {n wire}, s.wires[n]? = some wire →
      (s.wires ++ [Wire.opened i (bytes d.payload)])[n]? = some wire := fun hn =>
    (List.getElem?_append_left (List.getElem?_eq_some_iff.mp hn).1).trans hn
  refine ⟨h.net, fun n wire hn => ?_, fun j => ?_, fun r hr hack => ?_⟩
  · replace hn : (s.wires ++ [Wire.opened i (bytes d.payload)])[n]? = some wire := hn
    by_cases hlt : n < s.wires.length
    · rw [List.getElem?_append_left hlt] at hn
      refine (h.wires n wire hn).mono (fun hlive => ?_)
      unfold Floor.live at hlive ⊢
      rw [Bool.and_eq_true, beq_iff_eq] at hlive ⊢
      refine ⟨?_, hlive.2⟩
      have hthere : Function.update s.line i (some s.wires.length) wire.agent = some n := hlive.1
      by_cases hsame : wire.agent = i
      · rw [hsame, Function.update_self] at hthere
        cases hthere
        exact absurd hlt (lt_irrefl _)
      · rwa [Function.update_of_ne hsame] at hthere
    · rw [List.getElem?_append_right (Nat.le_of_not_lt hlt)] at hn
      obtain rfl := List.mem_singleton.mp (List.mem_of_getElem? hn)
      exact WireOk.opened i _
  · show SeatOk bytes (s.wires ++ [Wire.opened i (bytes d.payload)]) j
      (Function.update s.line i (some s.wires.length) j) (s.net.agents j)
    have hseat := h.seats j
    by_cases hj : j = i
    · subst hj
      rw [hi, hline] at hseat
      rw [hi, Function.update_self]
      refine ⟨Wire.opened j (bytes d.payload),
        (List.getElem?_append_right (le_refl _)).trans ?_, rfl, rfl, ?_⟩
      · rw [Nat.sub_self]
        rfl
      · rw [show p.reply = [] from hseat]
        exact List.nil_prefix
    · rw [Function.update_of_ne hj]
      unfold SeatOk at hseat ⊢
      cases hagent : s.net.agents j with
      | printing d' p' rest' =>
        rw [hagent] at hseat
        cases hl : s.line j with
        | none =>
          rw [hl] at hseat
          exact hseat
        | some n =>
          rw [hl] at hseat
          obtain ⟨wire, hn, hof⟩ := hseat
          exact ⟨wire, hkept hn, hof⟩
      | idle | fetching | acking rest' =>
        rw [hagent] at hseat
        exact hseat
  · obtain ⟨wire, hmem, htaken⟩ := h.paper r hr hack
    exact ⟨wire, List.mem_append_left _ hmem, htaken⟩

/-- **One action.** -/
theorem FloorOk.act (h : FloorOk config bytes w₀ s) (a : FloorAction) :
    FloorOk config bytes w₀ (s.act config bytes false a) := by
  cases a with
  | net a =>
    unfold Floor.act
    split
    · exact h
    · next a' hdata heq =>
      cases heq
      exact h.silent hdata
    all_goals next heq => cases heq
  | dial i =>
    dsimp only [Floor.act]
    split
    · next d p hline hopen => exact h.dial hline hopen
    · exact h
  | arrive n k => exact h.onWire (fun wire hn => ⟨(h.wires n wire hn).arrive k, Goes.arrive wire k⟩)
  | ended n =>
    refine h.onWire (fun wire hn => ⟨(h.wires n wire hn).ended (fun hcut hlive => ?_),
      Goes.ended (h.wires n wire hn) _ _⟩)
    rw [hlive] at hcut
    cases hcut
  | copied n result =>
    exact h.onWire (fun wire hn => ⟨(h.wires n wire hn).copied result,
      Goes.copied (h.wires n wire hn) result⟩)
  | broke n =>
    exact h.onWire (fun wire hn => ⟨(h.wires n wire hn).broke,
      rfl, rfl, List.prefix_rfl, fun _ hb => hb⟩)
  | heard i k =>
    dsimp only [Floor.act]
    split
    · next d p wire hopen hbind =>
      obtain ⟨n, hline, hwire⟩ := Option.bind_eq_some_iff.mp hbind
      exact h.heard hopen hline hwire k
    · exact h

theorem FloorOk.start (config : ℕ → AgentConfig) (bytes : Payload → List UInt8) (w₀ : World) :
    FloorOk config bytes w₀ (Floor.start w₀) where
  net := NetOk.init config w₀
  wires n wire h := by cases h
  seats i := rfl
  paper r hr := absurd hr List.not_mem_nil

theorem FloorOk.run (config : ℕ → AgentConfig) (bytes : Payload → List UInt8) (w₀ : World)
    (acts : List FloorAction) : FloorOk config bytes w₀ (usbRun config bytes false w₀ acts) := by
  induction acts using List.reverseRecOn with
  | nil => exact FloorOk.start config bytes w₀
  | append_singleton as a ih =>
    unfold usbRun at ih ⊢
    rw [List.foldl_concat]
    exact ih.act a

/-! ## What the server knows -/

/-- To the server and its agents, an action is one of theirs, or nothing. -/
theorem Floor.act_net (config : ℕ → AgentConfig) (bytes : Payload → List UInt8) (dryRun : Bool)
    (s : Floor) (a : FloorAction) : (s.act config bytes dryRun a).net = s.net
      ∨ ∃ b, (s.act config bytes dryRun a).net = s.net.act config b := by
  have hwire : ∀ n f, (s.onWire n f).net = s.net := by
    intro n f
    unfold Floor.onWire
    split
    · rfl
    · rfl
  cases a with
  | net a =>
    unfold Floor.act
    split
    · exact .inl rfl
    · exact .inr ⟨_, rfl⟩
    all_goals next heq => cases heq
  | dial i =>
    dsimp only [Floor.act]
    split
    · exact .inl rfl
    · exact .inl rfl
  | arrive n | ended n | copied n | broke n => exact .inl (hwire n _)
  | heard i k =>
    dsimp only [Floor.act]
    split
    · next p wire _ _ =>
      exact .inr ⟨.socket i (.data ((wire.said.drop p.reply.length).take k)), rfl⟩
    · exact .inl rfl

/-- From where the delivery is not sent, it is sent when it is printed. -/
theorem FloorOk.sent (config : ℕ → AgentConfig) (bytes : Payload → List UInt8) (w₀ : World)
    (pre post : List FloorAction) {id : Id}
    (hI : SentPrinted id (usbRun config bytes false w₀ pre).net) :
    SentPrinted id (usbRun config bytes false w₀ (pre ++ post)).net := by
  induction post using List.reverseRecOn with
  | nil =>
    rw [List.append_nil]
    exact hI
  | append_singleton as a ih =>
    have hok := (FloorOk.run config bytes w₀ (pre ++ as)).net
    rw [← List.append_assoc]
    unfold usbRun at ih hok ⊢
    rw [List.foldl_concat]
    rcases Floor.act_net config bytes false (List.foldl _ (Floor.start w₀) (pre ++ as)) a with
      hsame | ⟨b, hb⟩
    · rw [hsame]
      exact ih
    · rw [hb]
      exact hok.act_printed ih b

end

end Masadan
