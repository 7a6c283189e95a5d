import Mathlib.Logic.Function.Basic
import Masadan.Agent
import Masadan.Deliveries

/-!
# A ticket is sent when it is printed

Between the kitchen's paper and the row that says `sent` there is a network, and an
agent that may die at any point. The row is marked by an ack, an ack is posted for a
print that is settled, and a print is resolved by the printer. Messages may be lost, and
a message may be served twice, or much later; it still says what its agent has seen.

So a delivery for the bridge is pending, claimed or failed until some agent has printed
its payload, over every run (`sent_only_printed`). A printer that answers has answered
then with something that begins with `OK`, white space aside, which the agent trims
(`sent_only_printed_fails`).
-/

namespace Masadan

/-! ## The server and its agents -/

/-- The server with its retries, on which calls fail and which crashes. -/
abbrev printServer : Sys api := bridgeServer true true

/-- A print that was resolved: whose it was, of what, and what the printer had replied. -/
structure PrintRecord where
  agent : ℕ
  id : Id
  payload : Payload
  reply : Text
  deriving DecidableEq

/-- **The server, its agents, and what is between them.** An ack once posted stays on the
wire, from where it may be served any number of times, at any time, or never. -/
structure Net where
  pool : printServer.Pool
  agents : ℕ → AgentState
  wire : List (Text × AckBody)
  /-- The prints that were resolved, latest first. -/
  prints : List PrintRecord

/-- What happens next. -/
inductive NetAction where
  /-- The server goes on: requests arrive that are no acks, calls are answered or fail,
  time passes, the process dies. -/
  | server (a : printServer.Action)
  /-- An ack on the wire arrives, for the first time or again. -/
  | deliver (n : ℕ)
  /-- An agent that is idle asks for deliveries. -/
  | tick (i : ℕ)
  /-- An agent gets the answer to its poll; the `n`-th program has served it. -/
  | fetched (i n : ℕ)
  /-- Its poll, or the answer, is lost. -/
  | failed (i : ℕ)
  | socket (i : ℕ) (e : SocketEvent)
  /-- An agent posts the ack of a settled print. -/
  | report (i : ℕ)
  /-- It goes on, answered or not. -/
  | acked (i : ℕ)
  | crash (i : ℕ)

/-- The arrival of an ack, which only the wire brings. -/
def isAckArrival : printServer.Action → Bool
  | .arrive (.ack _ _) => true
  | _ => false

/-- What a poll has handed out, once it is done. -/
def handedOut (t : printServer.Thread) : Option (List Handed) :=
  match t.req, t.outcome with
  | .poll _ _, some (.ok (.polled (.deliveries handed))) => some handed
  | _, _ => none

namespace Net

def start (w₀ : World) : Net := ⟨Sys.Pool.init w₀, fun _ => .idle, [], []⟩

def setAgent (s : Net) (i : ℕ) (a : AgentState) : Net :=
  { s with agents := Function.update s.agents i a }

/-- A print goes on record when it is resolved. -/
def recordPrint (s : Net) (i : ℕ) (d : Handed) (p p' : Printing) : List PrintRecord :=
  if p.settled = none ∧ p'.settled = some none then ⟨i, d.id, d.payload, p'.reply⟩ :: s.prints
  else s.prints

def act (config : ℕ → AgentConfig) (s : Net) : NetAction → Net
  | .server a => if isAckArrival a then s else { s with pool := s.pool.act a }
  | .deliver n =>
    match s.wire[n]? with
    | none => s
    | some (key, body) => { s with pool := s.pool.act (.arrive (.ack (some key) body)) }
  | .tick i =>
    match s.agents i with
    | .idle => s.setAgent i .fetching
    | _ => s
  | .fetched i n =>
    match s.agents i, s.pool.threads[n]?.bind handedOut with
    | .fetching, some handed => s.setAgent i (.next handed)
    | _, _ => s
  | .failed i =>
    match s.agents i with
    | .fetching => s.setAgent i .idle
    | _ => s
  | .socket i e =>
    match s.agents i with
    | .printing d p rest =>
      let p' := p.on (config i) e
      { s.setAgent i (.printing d p' rest) with prints := s.recordPrint i d p p' }
    | _ => s
  | .report i =>
    match s.agents i with
    | .printing d ⟨_, some err⟩ rest =>
      { s.setAgent i (.acking rest) with
        wire := s.wire ++ [((config i).key, ackBody d.id err)] }
    | _ => s
  | .acked i =>
    match s.agents i with
    | .acking rest => s.setAgent i (.next rest)
    | _ => s
  | .crash i => s.setAgent i .idle

end Net

/-- A run, from a world in which no agent has begun. -/
def netRun (config : ℕ → AgentConfig) (w₀ : World) (acts : List NetAction) : Net :=
  acts.foldl (Net.act config) (Net.start w₀)

/-! ## What the agents have seen -/

/-- The row's payload is this one. -/
def World.HasTicket (w : World) (id : Id) (payload : Payload) : Prop :=
  ∃ d, w.posDeliveries.get? id = some d ∧ d.payload = payload

theorem World.HasTicket.later {w w' : World} {id : Id} {payload : Payload} (hw : DeliveriesKept w w')
    (h : w.HasTicket id payload) : w'.HasTicket id payload := by
  obtain ⟨d, hd, hpayload⟩ := h
  obtain ⟨d', hd', hsame⟩ := hw.kept id d hd
  exact ⟨d', hd', hsame.payload.trans hpayload⟩

/-- Some agent has printed the delivery. -/
def PrintedIn (prints : List PrintRecord) (id : Id) : Prop := ∃ r ∈ prints, r.id = id

theorem PrintedIn.mono {prints prints' : List PrintRecord} (hp : prints ⊆ prints') {id : Id}
    (h : PrintedIn prints id) : PrintedIn prints' id := by
  obtain ⟨r, hr, hid⟩ := h
  exact ⟨r, hp hr, hid⟩

/-- **An agent has what the server gave it**, and what it takes for printed is. -/
def AgentOk (w : World) (prints : List PrintRecord) : AgentState → Prop
  | .idle | .fetching => True
  | .printing d p rest => w.HasTicket d.id d.payload ∧ (p.settled = some none → PrintedIn prints d.id)
      ∧ ∀ h ∈ rest, w.HasTicket h.id h.payload
  | .acking rest => ∀ h ∈ rest, w.HasTicket h.id h.payload

theorem AgentOk.mono {w w' : World} {prints prints' : List PrintRecord} {a : AgentState}
    (hw : DeliveriesKept w w') (hp : prints ⊆ prints') (h : AgentOk w prints a) :
    AgentOk w' prints' a := by
  cases a with
  | idle => exact trivial
  | fetching => exact trivial
  | printing d p rest =>
    exact ⟨h.1.later hw, fun hs => (h.2.1 hs).mono hp, fun k hk => (h.2.2 k hk).later hw⟩
  | acking rest => exact fun k hk => (h k hk).later hw

theorem AgentOk.next {w : World} {prints : List PrintRecord} {batch : List Handed}
    (h : ∀ k ∈ batch, w.HasTicket k.id k.payload) : AgentOk w prints (.next batch) := by
  cases batch with
  | nil => exact trivial
  | cons d rest =>
    exact ⟨h d List.mem_cons_self, fun hs => (by cases hs),
      fun k hk => h k (List.mem_cons_of_mem _ hk)⟩

/-- **What is true of every run**: the server's programs do what they may; who says that a
delivery is printed is right, be it an ack being served, an ack on the wire or an
agent; and what was printed is what the server holds. -/
structure NetOk (config : ℕ → AgentConfig) (w₀ : World) (s : Net) : Prop where
  pool : (deliveryProtocol true true).PoolOk bridgePost w₀ s.pool
  acks : ∀ t ∈ s.pool.threads, ∀ key body id, t.req = .ack key body → body.ok = true →
    body.deliveryId = some id → PrintedIn s.prints id
  wire : ∀ m ∈ s.wire, ∀ id, m.2.ok = true → m.2.deliveryId = some id → PrintedIn s.prints id
  agents : ∀ i, AgentOk s.pool.world s.prints (s.agents i)
  prints : ∀ r ∈ s.prints, s.pool.world.HasTicket r.id r.payload
    ∧ ((config r.agent).printerAck = true → startsOK r.reply.trim = true)

section

variable {config : ℕ → AgentConfig} {w₀ : World} {s : Net}

theorem NetOk.init (config : ℕ → AgentConfig) (w₀ : World) : NetOk config w₀ (Net.start w₀) where
  pool := Protocol.PoolOk.init trivial
  acks _ ht := absurd ht List.not_mem_nil
  wire _ hm := absurd hm List.not_mem_nil
  agents _ := trivial
  prints _ hr := absurd hr List.not_mem_nil

theorem print_cond (p : printServer.Pool) (a : printServer.Action) :
    (deliveryProtocol true true).cond p a = true :=
  (deliveryProtocol true true).cond_true (fun _ _ _ _ _ => rfl) p a

/-- **The server goes on**, and an ack that arrives is right. -/
theorem NetOk.server (h : NetOk config w₀ s) (a : printServer.Action)
    (hack : ∀ key body id, a = .arrive (.ack key body) → body.ok = true →
      body.deliveryId = some id → PrintedIn s.prints id) :
    NetOk config w₀ { s with pool := s.pool.act a } := by
  have hkept : DeliveriesKept s.pool.world (s.pool.act a).world :=
    h.pool.act_evolves (deliverySound true true) (print_cond _ _)
  refine ⟨h.pool.act (deliverySound true true) (print_cond _ _), fun t ht key body id hr hok hid => ?_,
    h.wire, fun i => (h.agents i).mono hkept (List.Subset.refl _),
    fun r hr => ⟨(h.prints r hr).1.later hkept, (h.prints r hr).2⟩⟩
  rcases Sys.Pool.act_req ht with ⟨t₀, ht₀, hreq⟩ | ⟨rfl, _⟩ | ⟨op, hspawned⟩
  · exact h.acks t₀ ht₀ key body id (hreq.trans hr) hok hid
  · exact hack key body id (congrArg Sys.Action.arrive hr) hok hid
  · obtain ⟨job, _, hjob⟩ := spawns_cases hspawned
    rw [hr] at hjob
    cases List.mem_singleton.mp hjob

/-- An agent takes another state, and prints are recorded. -/
theorem NetOk.agent (h : NetOk config w₀ s) (i : ℕ) {a : AgentState} {prints : List PrintRecord}
    (hsub : s.prints ⊆ prints) (ha : AgentOk s.pool.world prints a)
    (hprints : ∀ r ∈ prints, s.pool.world.HasTicket r.id r.payload
      ∧ ((config r.agent).printerAck = true → startsOK r.reply.trim = true)) :
    NetOk config w₀ { s.setAgent i a with prints := prints } := by
  have hkept : DeliveriesKept s.pool.world s.pool.world := DeliveriesKept.of_eq (le_refl _) rfl
  refine ⟨h.pool, fun t ht key body id hr hok hid => (h.acks t ht key body id hr hok hid).mono hsub,
    fun m hm id hok hid => (h.wire m hm id hok hid).mono hsub, fun j => ?_, hprints⟩
  show AgentOk s.pool.world prints (Function.update s.agents i a j)
  by_cases hj : j = i
  · subst hj
    rw [Function.update_self]
    exact ha
  · rw [Function.update_of_ne hj]
    exact (h.agents j).mono hkept hsub

theorem NetOk.setAgent (h : NetOk config w₀ s) (i : ℕ) {a : AgentState}
    (ha : AgentOk s.pool.world s.prints a) : NetOk config w₀ (s.setAgent i a) :=
  h.agent i (List.Subset.refl _) ha h.prints

/-- What a poll has handed out is what the server holds. -/
theorem NetOk.handed (h : NetOk config w₀ s) {t : printServer.Thread} (ht : t ∈ s.pool.threads)
    {batch : List Handed} (hb : handedOut t = some batch) :
    ∀ k ∈ batch, s.pool.world.HasTicket k.id k.payload := by
  intro k hk
  unfold handedOut at hb
  split at hb
  · next key claimId handed hreq hout =>
    cases hb
    have hpost := h.pool.post ht hout
    rw [hreq] at hpost
    -- it was read back under the claim, some time ago
    rcases hpost with rfl | ⟨e, he, rfl⟩
    · cases hk
    · obtain ⟨d, hd, _, hpayload⟩ := mem_claimedUnder hk
      have hmade := h.pool.made t ht e he
      exact World.HasTicket.later
        (rely_kept ((Protocol.Rely.single hmade.evolves).trans' hmade.led)) ⟨d, hd, hpayload.symm⟩
  · cases hb

/-- **A print is recorded when it is resolved**, with an answer if the printer gives
one. -/
theorem NetOk.socket (h : NetOk config w₀ s) {i : ℕ} {d : Handed} {p : Printing}
    {rest : List Handed} (hi : s.agents i = .printing d p rest) (e : SocketEvent) :
    NetOk config w₀ { s.setAgent i (.printing d (p.on (config i) e) rest) with
      prints := s.recordPrint i d p (p.on (config i) e) } := by
  have hagent := h.agents i
  rw [hi] at hagent
  obtain ⟨hticket, hprinted, hrest⟩ := hagent
  unfold Net.recordPrint
  by_cases hnow : p.settled = none ∧ (p.on (config i) e).settled = some none
  · rw [if_pos hnow]
    refine h.agent i (List.subset_cons_self _ _)
      ⟨hticket, fun _ => ⟨_, List.mem_cons_self, rfl⟩, hrest⟩ (fun r hr => ?_)
    rcases List.mem_cons.mp hr with rfl | hr
    · exact ⟨hticket, fun hack => Printing.resolved_ok hack hnow.1 hnow.2⟩
    · exact h.prints r hr
  · rw [if_neg hnow]
    refine h.agent i (List.Subset.refl _) ⟨hticket, fun hs => hprinted ?_, hrest⟩ h.prints
    -- it was resolved before
    cases hsettled : p.settled with
    | none => exact absurd ⟨hsettled, hs⟩ hnow
    | some r =>
      rw [Printing.on_settled hsettled] at hs
      exact hs

/-- **One action.** -/
theorem NetOk.act (h : NetOk config w₀ s) (a : NetAction) : NetOk config w₀ (s.act config a) := by
  cases a with
  | server a =>
    show NetOk config w₀ (if isAckArrival a then s else { s with pool := s.pool.act a })
    split
    · exact h
    · next hnot =>
      refine h.server a (fun key body id heq _ _ => absurd ?_ hnot)
      rw [heq]
      rfl
  | deliver n =>
    dsimp only [Net.act]
    split
    · exact h
    · next key body hm =>
      refine h.server _ (fun key' body' id heq hok hid => ?_)
      cases heq
      exact h.wire (key, body) (List.mem_of_getElem? hm) id hok hid
  | tick i =>
    dsimp only [Net.act]
    split
    · exact h.setAgent i trivial
    · exact h
  | fetched i n =>
    dsimp only [Net.act]
    split
    · next handed _ hout =>
      obtain ⟨t, ht, hb⟩ := Option.bind_eq_some_iff.mp hout
      exact h.setAgent i (AgentOk.next (h.handed (List.mem_of_getElem? ht) hb))
    · exact h
  | failed i =>
    dsimp only [Net.act]
    split
    · exact h.setAgent i trivial
    · exact h
  | socket i e =>
    dsimp only [Net.act]
    split
    · next d p rest hi => exact h.socket hi e
    · exact h
  | report i =>
    dsimp only [Net.act]
    split
    · next d reply err rest hi =>
      have hagent := h.agents i
      rw [hi] at hagent
      obtain ⟨_, hprinted, hrest⟩ := hagent
      have hset := h.setAgent i (a := .acking rest) hrest
      refine ⟨hset.pool, hset.acks, fun m hm id hok hid => ?_, hset.agents, hset.prints⟩
      rcases List.mem_append.mp hm with hm | hm
      · exact hset.wire m hm id hok hid
      · -- the ack just posted says what the print came to
        obtain rfl := List.mem_singleton.mp hm
        cases hid
        cases err with
        | none => exact hprinted rfl
        | some e => cases hok
    · exact h
  | acked i =>
    dsimp only [Net.act]
    split
    · next rest hi =>
      have hagent := h.agents i
      rw [hi] at hagent
      exact h.setAgent i (AgentOk.next hagent)
    · exact h
  | crash i => exact h.setAgent i trivial

theorem NetOk.run (config : ℕ → AgentConfig) (w₀ : World) (acts : List NetAction) :
    NetOk config w₀ (netRun config w₀ acts) := by
  induction acts using List.reverseRecOn with
  | nil => exact NetOk.init config w₀
  | append_singleton as a ih =>
    unfold netRun at ih ⊢
    rw [List.foldl_concat]
    exact ih.act a

/-! ## What the server says -/

/-- The delivery, if it is for the bridge and sent, was printed. -/
def SentPrinted (id : Id) (s : Net) : Prop :=
  ∀ d, s.pool.world.posDeliveries.get? id = some d → d.adapter = .escpos_bridge →
    d.status = .sent → PrintedIn s.prints id

/-- **A delivery for the bridge is sent by an ack** that says that it is printed. -/
theorem RowStep.sent_bridge {rough : Bool} {r : BridgeRequest} {op : Call} {w : World} {id : Id}
    {d d' : PosDelivery} (h : RowStep rough r op w id d d') (hadapter : d.adapter = .escpos_bridge)
    (hsent : d'.status = .sent) : d.status = .sent
      ∨ ∃ key body, r = .ack key body ∧ body.ok = true ∧ body.deliveryId = some id := by
  cases h with
  | same => exact .inl hsent
  | claimed hr hclaimable hstale => cases hsent
  | @settled key body attempts hr hid hop =>
    refine .inr ⟨key, body, hr, ?_, hid⟩
    by_contra hnot
    unfold settle at hsent
    rw [if_neg hnot] at hsent
    dsimp only at hsent
    split at hsent
    · cases hsent
    · cases hsent
  | retried hr hop => cases hsent
  | expired hr hclaimed hstale claimedAt => cases hsent
  | exhausted hr hpending => cases hsent
  | pushed hconsole =>
    rw [hconsole] at hadapter
    cases hadapter
  | refused hconsole hrough attempts error =>
    rw [hconsole] at hadapter
    cases hadapter

/-- The server goes on: what it marks as sent has been printed. -/
theorem NetOk.server_printed (h : NetOk config w₀ s) {id : Id} (hI : SentPrinted id s)
    (a : printServer.Action) : SentPrinted id { s with pool := s.pool.act a } := by
  intro d' hd' hadapter hsent
  replace hd' : (s.pool.act a).world.posDeliveries.get? id = some d' := hd'
  rcases h.pool.act_cases (print_cond s.pool a) with hsame | ⟨e, rfl, henv⟩
    | ⟨i, c, t, op, k, rfl, ht, _, _, _, htakes⟩
  · rw [hsame] at hd'
    exact hI d' hd' hadapter hsent
  · rw [henv] at hd'
    cases e with
    | tick ms => exact hI d' hd' hadapter hsent
    | crash => exact hI d' hd' hadapter hsent
  · cases hbefore : s.pool.world.posDeliveries.get? id with
    | none =>
      -- it has just been written
      have hpending := (htakes.here.fresh id d' hbefore hd').1
      rw [hsent] at hpending
      cases hpending
    | some d =>
      obtain ⟨d'', hd'', hstep⟩ := htakes.here.step id d hbefore
      obtain rfl : d' = d'' := Option.some.inj (hd'.symm.trans hd'')
      rw [hstep.sameTicket.adapter] at hadapter
      rcases hstep.sent_bridge hadapter hsent with hsent | ⟨key, body, hr, hok, hid⟩
      · exact hI d hbefore hadapter hsent
      · exact h.acks t (List.mem_of_getElem? ht) key body id hr hok hid

/-- The agents go on: the server does not notice. -/
theorem SentPrinted.mono {id : Id} {s' : Net} (hI : SentPrinted id s) (hpool : s'.pool = s.pool)
    (hsub : s.prints ⊆ s'.prints) : SentPrinted id s' := by
  intro d hd hadapter hsent
  rw [hpool] at hd
  exact (hI d hd hadapter hsent).mono hsub

theorem Net.subset_recordPrint (s : Net) (i : ℕ) (d : Handed) (p p' : Printing) :
    s.prints ⊆ s.recordPrint i d p p' := by
  unfold Net.recordPrint
  split
  · exact List.subset_cons_self _ _
  · exact List.Subset.refl _

/-- **One action**: it sends nothing for the bridge that is not printed. -/
theorem NetOk.act_printed (h : NetOk config w₀ s) {id : Id} (hI : SentPrinted id s)
    (a : NetAction) : SentPrinted id (s.act config a) := by
  have hstill : ∀ i b, SentPrinted id (s.setAgent i b) :=
    fun i b => hI.mono rfl (List.Subset.refl _)
  cases a with
  | server a =>
    show SentPrinted id (if isAckArrival a then s else { s with pool := s.pool.act a })
    split
    · exact hI
    · exact h.server_printed hI a
  | deliver n =>
    dsimp only [Net.act]
    split
    · exact hI
    · exact h.server_printed hI _
  | tick i =>
    dsimp only [Net.act]
    split
    · exact hstill i _
    · exact hI
  | fetched i n =>
    dsimp only [Net.act]
    split
    · exact hstill i _
    · exact hI
  | failed i =>
    dsimp only [Net.act]
    split
    · exact hstill i _
    · exact hI
  | socket i e =>
    dsimp only [Net.act]
    split
    · exact hI.mono rfl (s.subset_recordPrint i _ _ _)
    · exact hI
  | report i =>
    dsimp only [Net.act]
    split
    · exact hI.mono rfl (List.Subset.refl _)
    · exact hI
  | acked i =>
    dsimp only [Net.act]
    split
    · exact hstill i _
    · exact hI
  | crash i => exact hstill i _

/-- From where the delivery is not sent, it is sent when it is printed. -/
theorem SentPrinted.run (config : ℕ → AgentConfig) (w₀ : World) (pre post : List NetAction)
    {id : Id} (hI : SentPrinted id (netRun config w₀ pre)) :
    SentPrinted id (netRun config w₀ (pre ++ post)) := by
  induction post using List.reverseRecOn with
  | nil =>
    rw [List.append_nil]
    exact hI
  | append_singleton as a ih =>
    have hok := NetOk.run config w₀ (pre ++ as)
    rw [← List.append_assoc]
    unfold netRun at ih hok ⊢
    rw [List.foldl_concat]
    exact hok.act_printed ih a

end

/-- **A ticket is sent when it is printed.** In every run of the server and its agents, a
delivery for the bridge, from where it is not sent, is pending, claimed or failed until
some agent's print of its payload was resolved; and a print whose printer answers is
resolved by an answer that, trimmed, begins with `OK`. -/
theorem sent_only_printed (config : ℕ → AgentConfig) (w₀ : World) (pre post : List NetAction)
    (id : Id) (d : PosDelivery)
    (hnot : (netRun config w₀ pre).pool.world.deliveryStatus id ≠ some .sent)
    (hrow : (netRun config w₀ (pre ++ post)).pool.world.posDeliveries.get? id = some d)
    (hadapter : d.adapter = .escpos_bridge) :
    (d.status = .pending ∨ d.status = .claimed ∨ d.status = .failed
      ∨ ∃ r ∈ (netRun config w₀ (pre ++ post)).prints, r.id = id ∧ r.payload = d.payload)
    ∧ ∀ r ∈ (netRun config w₀ (pre ++ post)).prints, (config r.agent).printerAck = true →
      startsOK r.reply.trim = true := by
  have hok := NetOk.run config w₀ (pre ++ post)
  refine ⟨?_, fun r hr => (hok.prints r hr).2⟩
  have hprinted := SentPrinted.run config w₀ pre post
    (fun d hd _ hs => absurd (deliveryStatus_eq_some.mpr ⟨d, hd, hs⟩) hnot)
  cases hstatus : d.status with
  | pending => exact .inl rfl
  | claimed => exact .inr (.inl rfl)
  | failed => exact .inr (.inr (.inl rfl))
  | sent =>
    obtain ⟨r, hr, hid⟩ := hprinted d hrow hadapter hstatus
    obtain ⟨d', hd', hpayload⟩ := (hok.prints r hr).1
    rw [hid, hrow] at hd'
    cases hd'
    exact .inr (.inr (.inr ⟨r, hr, hid, hpayload.symm⟩))

/-! ### A shim that answers -/

/-- A shim in front of a USB printer. -/
def shim (_ : ℕ) : AgentConfig := ⟨[], true, 30000⟩

/-- The ticket is printed; the shim's answer begins with a blank. -/
def shimPrints : List NetAction :=
  [.server (.arrive (.poll (some []) 1))] ++ List.replicate 6 (.server (.step 0 plain))
    ++ [.tick 0, .fetched 0 0, .socket 0 (.data (text " OK")), .socket 0 .ended]

/-- The agent reports, and its ack is served. -/
def shimReports : List NetAction :=
  [.report 0, .deliver 0] ++ List.replicate 3 (.server (.step 1 plain))

/-- **An answer need not begin with `OK`**: it is trimmed. -/
theorem sent_only_printed_fails :
    ¬ ∀ (config : ℕ → AgentConfig) (w₀ : World) (pre post : List NetAction) (id : Id)
      (d : PosDelivery), (netRun config w₀ pre).pool.world.deliveryStatus id ≠ some .sent →
      (netRun config w₀ (pre ++ post)).pool.world.posDeliveries.get? id = some d →
      d.adapter = .escpos_bridge →
      (d.status = .pending ∨ d.status = .claimed ∨ d.status = .failed
        ∨ ∃ r ∈ (netRun config w₀ (pre ++ post)).prints, r.id = id ∧ r.payload = d.payload)
      ∧ ∀ r ∈ (netRun config w₀ (pre ++ post)).prints, (config r.agent).printerAck = true →
        startsOK r.reply = true := by
  intro h
  have hrow : (((netRun shim kitchenBehindBridge ([] ++ shimPrints)).pool.world.posDeliveries.get?
      0).map PosDelivery.adapter) = some .escpos_bridge := by decide
  have hprint : ((netRun shim kitchenBehindBridge ([] ++ shimPrints)).prints.any
      (fun r => !startsOK r.reply)) = true := by decide
  obtain ⟨d, hd, hadapter⟩ := Option.map_eq_some_iff.mp hrow
  obtain ⟨r, hr, hreply⟩ := List.any_eq_true.mp hprint
  have hstarts := (h shim kitchenBehindBridge [] shimPrints 0 d (by decide) hd hadapter).2 r hr rfl
  rw [hstarts] at hreply
  cases hreply

/-- The ticket, sent. -/
def shimTicket : PosDelivery :=
  ⟨0, 0, .escpos_bridge, .sent, 1, none, none, none, .escPos ⟨[], [], [], 1, 0, [], 0, none⟩, 0⟩

/-- The ticket is sent: it was printed, and the answer was `OK`. -/
theorem sent_only_printed_shim :
    (shimTicket.status = .pending ∨ shimTicket.status = .claimed ∨ shimTicket.status = .failed
        ∨ ∃ r ∈ (netRun shim kitchenBehindBridge (shimPrints ++ shimReports)).prints,
          r.id = 0 ∧ r.payload = shimTicket.payload)
      ∧ ∀ r ∈ (netRun shim kitchenBehindBridge (shimPrints ++ shimReports)).prints,
        (shim r.agent).printerAck = true → startsOK r.reply.trim = true :=
  sent_only_printed shim kitchenBehindBridge shimPrints shimReports 0 shimTicket
    (by decide) (by decide) rfl

end Masadan
