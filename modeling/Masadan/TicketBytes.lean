import Masadan.Pc857
import Masadan.Woven

/-!
# Customer text and the printer

Whatever a ticket's texts are, the encoder writes of them only bytes that a printer takes
for text: printable ASCII and the letters of the code page. So the bytes of a ticket are its
fixed commands in their order, with text between them, and a printer obeys the same
commands for every ticket (`ticket_commands`).
-/

namespace Masadan

/-! ## What the encoder writes -/

/-- **A byte of text**: printable ASCII, a line feed or a letter of the code page. -/
def Inert (b : UInt8) : Prop :=
  (0x20 ≤ b ∧ b ≤ 0x7e) ∨ b = 0x0a ∨ (b ∈ PC857.map Prod.snd ∧ 0x80 ≤ b)

/-- **The encoder writes text only.** -/
theorem encodePc857_inert (s : Text) : ∀ b ∈ encodePc857 s, Inert b := by
  intro b hb
  rcases encodePc857_spec s b hb with hprintable | hletter
  · exact .inl hprintable
  · exact .inr (.inr hletter)

/-! ## What a printer reads -/

/-- The commands of every ticket: initialise, select the code page, centre, double size,
normal size, left, partial cut. -/
def ticketCommands : List (List UInt8) :=
  [[0x1b, 0x40], [0x1b, 0x74, 0x0d], [0x1b, 0x61, 0x01], [0x1d, 0x21, 0x11], [0x1d, 0x21, 0x00],
    [0x1b, 0x61, 0x00], [0x1d, 0x56, 0x42, 0x03]]

/-- **A printer**: it takes the bytes of text for text, and knows the commands. -/
structure Printer extends Reader UInt8 where
  inert : ∀ b, Inert b → more [b] = false
  knows : ∀ c ∈ ticketCommands, toReader.Knows c

/-- The bytes of a ticket are its commands, with text between them. -/
theorem renderEscPos_woven (intl : Intl) (ticket : Ticket) :
    Woven Inert ticketCommands (renderEscPos intl ticket) := by
  unfold renderEscPos
  simp only [List.append_assoc]
  refine .command [0x1b, 0x40] (.command [0x1b, 0x74, 0x0d] (.command [0x1b, 0x61, 0x01]
    (.command [0x1d, 0x21, 0x11] (.texts ?_ (encodePc857_inert _)))))
  refine .command [0x1d, 0x21, 0x00] (.texts ?_ (encodePc857_inert _))
  refine .command [0x1b, 0x61, 0x00] (.texts ?_ (encodePc857_inert _))
  exact .command [0x1d, 0x56, 0x42, 0x03] .done

/-- **Customer text cannot drive the printer**: of any text the encoder writes text only; a
ticket is its fixed commands in their order with text between them; and any printer obeys
just these. -/
theorem ticket_commands (intl : Intl) (ticket : Ticket) :
    (∀ s, ∀ b ∈ encodePc857 s, Inert b)
      ∧ Woven Inert ticketCommands (renderEscPos intl ticket)
      ∧ ∀ printer : Printer, printer.commands (renderEscPos intl ticket) = ticketCommands
        ∧ ∀ t ∈ printer.read [] (renderEscPos intl ticket),
          t ∈ ticketCommands ∨ ∃ b, t = [b] ∧ Inert b := by
  have hwoven := renderEscPos_woven intl ticket
  exact ⟨encodePc857_inert, hwoven, fun printer => hwoven.reads printer.inert printer.knows⟩

/-! ## A printer there is -/

/-- The commands of a printer, as far as the tickets use them: `ESC` and `GS` begin one,
`ESC @` is whole, a cut with a feed takes two bytes more, all others one. -/
def escPosMore : List UInt8 → Bool
  | [b] => b == 0x1b || b == 0x1d
  | [0x1b, f] => f != 0x40
  | [0x1d, _] => true
  | [0x1d, 0x56, m] => m == 0x41 || m == 0x42
  | _ => false

/-- What is text begins no command. -/
theorem escPos_inert (b : UInt8) (hb : Inert b) : escPosMore [b] = false := by
  show (b == 0x1b || b == 0x1d) = false
  rw [Bool.or_eq_false_iff, beq_eq_false_iff_ne, beq_eq_false_iff_ne]
  constructor
  · rintro rfl
    exact absurd hb (by unfold Inert; decide +kernel)
  · rintro rfl
    exact absurd hb (by unfold Inert; decide +kernel)

theorem escPos_knows : ∀ c ∈ ticketCommands, (⟨escPosMore⟩ : Reader UInt8).Knows c := by
  unfold ticketCommands
  simp only [List.forall_mem_cons]
  refine ⟨?_, ?_, ?_, ?_, ?_, ?_, ?_, fun _ h => absurd h List.not_mem_nil⟩ <;>
    exact ⟨by decide, by decide, by decide⟩

/-- A printer. -/
def escPos : Printer := ⟨⟨escPosMore⟩, escPos_inert, escPos_knows⟩

end Masadan
