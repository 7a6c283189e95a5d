import Masadan.Bridge

/-!
# The bridge agent

`bridge/agent.mjs`: the agent polls, prints each delivery it is handed, one after
another, and reports each to the server. A print is a connection to the printer and a
promise that is settled once, by whichever of the socket's callbacks comes first: the
bytes are flushed, the far end closes, the socket is silent for too long, or fails. A
shim in front of a USB printer answers whether it has printed; then the flushing alone
says nothing.

The previews of `DRY_RUN` are left out.
-/

namespace Masadan

/-- The environment an agent is started in. -/
structure AgentConfig where
  /-- The hash of `BRIDGE_KEY`. -/
  key : Text
  /-- `PRINTER_ACK`: the far end answers. -/
  printerAck : Bool
  /-- `PRINTER_ACK_TIMEOUT_MS`. -/
  ackTimeoutMs : ℕ := 30000

/-- How long the socket may be silent. -/
def AgentConfig.socketTimeout (config : AgentConfig) : ℕ :=
  if config.printerAck then config.ackTimeoutMs else 10000

/-! ## `printRaw` -/

/-- What the socket reports. -/
inductive SocketEvent where
  /-- The bytes have been handed over, and our side is closed. -/
  | flushed
  | timeout
  | data (chunk : Text)
  /-- The far end has closed. -/
  | ended
  | error (message : Text)

/-- A print on its way: what has been replied, and, once it is settled, the error it was
rejected with, or `none` if it was resolved. -/
structure Printing where
  reply : Text
  settled : Option (Option Text)

/-- A connection just opened. -/
def Printing.opened : Printing := ⟨[], none⟩

/-- `finish`: the first call counts. -/
def Printing.finish (p : Printing) (err : Option Text) : Printing :=
  match p.settled with
  | some _ => p
  | none => { p with settled := some err }

/-- `line.startsWith("OK")`. -/
def startsOK (line : Text) : Bool := (text "OK").isPrefixOf line

/-- **The socket's callbacks.** -/
def Printing.on (config : AgentConfig) (p : Printing) : SocketEvent → Printing
  | .flushed => if config.printerAck then p else p.finish none
  | .timeout => p.finish (some (if config.printerAck then text "no print acknowledgement from shim"
      else text "printer timeout"))
  | .data chunk => { p with reply := p.reply ++ chunk }
  | .ended =>
    if !config.printerAck then p.finish none
    else
      let line := p.reply.trim
      if startsOK line then p.finish none
      else p.finish (some (if line = [] then text "shim closed without acknowledging"
        else line.slice 200))
  | .error message => p.finish (some message)

@[simp] theorem Printing.finish_reply (p : Printing) (err : Option Text) :
    (p.finish err).reply = p.reply := by
  unfold Printing.finish
  split
  · rfl
  · rfl

/-- What is settled stays settled. -/
theorem Printing.on_settled {config : AgentConfig} {p : Printing} {r : Option Text}
    (h : p.settled = some r) (e : SocketEvent) : (p.on config e).settled = some r := by
  have hfinish : ∀ err, (p.finish err).settled = some r := by
    intro err
    unfold Printing.finish
    rw [h]
    exact h
  cases e with
  | flushed =>
    show (if config.printerAck then p else p.finish none).settled = some r
    split
    · exact h
    · exact hfinish none
  | timeout => exact hfinish _
  | data chunk => exact h
  | ended =>
    unfold Printing.on
    dsimp only
    split
    · exact hfinish none
    · split
      · exact hfinish none
      · exact hfinish _
  | error message => exact hfinish _

/-- **With an answering printer, a print is resolved only by an answer** that, trimmed,
begins with `OK`. -/
theorem Printing.resolved_ok {config : AgentConfig} {p : Printing} {e : SocketEvent}
    (hack : config.printerAck = true) (hbefore : p.settled = none)
    (h : (p.on config e).settled = some none) : startsOK (p.on config e).reply.trim = true := by
  have hrejected : ∀ err : Text, (p.finish (some err)).settled ≠ some none := by
    intro err heq
    unfold Printing.finish at heq
    rw [hbefore] at heq
    cases heq
  cases e with
  | flushed =>
    unfold Printing.on at h
    rw [if_pos hack, hbefore] at h
    cases h
  | timeout => exact absurd h (hrejected _)
  | data chunk =>
    replace h : p.settled = some none := h
    rw [hbefore] at h
    cases h
  | ended =>
    unfold Printing.on at h ⊢
    rw [hack] at h ⊢
    dsimp only at h ⊢
    rw [Bool.not_true, if_neg Bool.false_ne_true] at h ⊢
    by_cases hline : startsOK p.reply.trim = true
    · rw [if_pos hline, Printing.finish_reply]
      exact hline
    · rw [if_neg hline] at h
      exact absurd h (hrejected _)
  | error message => exact absurd h (hrejected message)

/-! ## The agent -/

/-- Where an agent stands. One tick at a time: there is at most one batch. -/
inductive AgentState where
  | idle
  /-- Waiting for the answer to its poll. -/
  | fetching
  /-- A delivery is being printed, or has been; the rest of the batch comes after. -/
  | printing (d : Handed) (p : Printing) (rest : List Handed)
  /-- Waiting for the answer to its ack. -/
  | acking (rest : List Handed)

/-- The loop over a batch. -/
def AgentState.next : List Handed → AgentState
  | [] => .idle
  | d :: rest => .printing d Printing.opened rest

/-- The body of the ack of a settled print. -/
def ackBody (id : Id) (err : Option Text) : AckBody := ⟨some id, err.isNone, err⟩

end Masadan
