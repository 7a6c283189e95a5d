import Masadan.Schema

/-!
# A ticket in the printer's code page

`src/lib/pos/ticket.ts`: a kitchen ticket as text of 32 columns, and as the bytes an
ESC/POS printer of code page 857 takes; and `decodePc857` of `bridge/agent.mjs`, which
reads such bytes back for a dry run.

The two tables agree and the letters come back as they were. The encoder lets only
what lies between a space and a tilde through, and the line feed lies below.
`pc857_survives` says for which texts the round trip is the identity, and that no line
break of any ticket reaches the printer.
-/

namespace Masadan

/-! ## The encoder -/

/-- `PC857`: the letters of the code page that are not ASCII. -/
def PC857 : List (Text × UInt8) :=
  [(text "ç", 0x87), (text "Ç", 0x80),
   (text "ü", 0x81), (text "Ü", 0x9a),
   (text "ö", 0x94), (text "Ö", 0x99),
   (text "ı", 0x8d), (text "İ", 0x98),
   (text "ş", 0x9f), (text "Ş", 0x9e),
   (text "ğ", 0xa7), (text "Ğ", 0xa6),
   (text "â", 0x83), (text "Â", 0xb6),
   (text "î", 0x8c), (text "Î", 0xd7),
   (text "û", 0x96), (text "Û", 0xea)]

/-- `ASCII_FALLBACK`: spellings of what the code page cannot represent. -/
def ASCII_FALLBACK : List (Text × Text) :=
  [(text "₺", text "TL"),
   (text "’", text "'"), (text "‘", text "'"), (text "“", text "\""), (text "”", text "\""),
   (text "–", text "-"), (text "—", text "-"), (text "…", text "...")]

/-- The characters of a string, as `for … of` lists them: a surrogate pair is one. -/
def Text.chars : Text → List Text
  | [] => []
  | [u] => [[u]]
  | u :: v :: rest =>
    if 0xd800 ≤ u && u < 0xdc00 && 0xdc00 ≤ v && v < 0xe000 then [u, v] :: Text.chars rest
    else [u] :: Text.chars (v :: rest)

/-- One round of `encodePc857`. -/
def encodeChar (ch : Text) : List UInt8 :=
  match ASCII_FALLBACK.lookup ch with
  | some fallback => List.map UInt16.toUInt8 fallback
  | none =>
    match PC857.lookup ch with
    | some mapped => [mapped]
    | none =>
      let code := ch.headD 0
      [if 0x20 ≤ code && code ≤ 0x7e then code.toUInt8 else 0x3f]

/-- **`encodePc857`.** -/
def encodePc857 (s : Text) : List UInt8 := s.chars.flatMap encodeChar

/-! ## The decoder -/

/-- `PC857_DECODE`. -/
def PC857_DECODE : List (UInt8 × Text) :=
  [(0x87, text "ç"), (0x80, text "Ç"), (0x81, text "ü"), (0x9a, text "Ü"), (0x94, text "ö"),
   (0x99, text "Ö"), (0x8d, text "ı"), (0x98, text "İ"), (0x9f, text "ş"), (0x9e, text "Ş"),
   (0xa7, text "ğ"), (0xa6, text "Ğ"), (0x83, text "â"), (0xb6, text "Â"), (0x8c, text "î"),
   (0xd7, text "Î"), (0x96, text "û"), (0xea, text "Û")]

/-- One round of `decodePc857`. What is neither a letter nor printable is dropped. -/
def decodeByte (b : UInt8) : Text :=
  if b = 0x0a then text "\n"
  else
    match PC857_DECODE.lookup b with
    | some mapped => mapped
    | none => if 0x20 ≤ b && b ≤ 0x7e then [b.toUInt16] else []

/-- **`decodePc857`.** -/
def decodePc857 (bytes : List UInt8) : Text := bytes.flatMap decodeByte

/-! ## The ticket -/

/-- What a ticket asks of the JavaScript runtime's knowledge of languages. -/
structure Intl where
  /-- `toUpperCase()`. -/
  toUpperCase : Text → Text
  /-- `toLocaleTimeString("tr-TR", …)`: hours and minutes. -/
  toLocaleTimeString : Time → Text
  /-- `toLocaleString("tr-TR", …)` of a hundredth of the number, with so many digits
  after the comma at least, and two at most. -/
  toLocaleString : ℤ → ℕ → Text

/-- `repeat`. -/
def Text.repeat (s : Text) (n : ℕ) : Text := (List.replicate n s).flatten

/-- `padEnd`. -/
def Text.padEnd (s : Text) (w : ℕ) : Text := s ++ List.replicate (w - s.length) 0x20

/-- `padStart`. -/
def Text.padStart (s : Text) (w : ℕ) : Text := List.replicate (w - s.length) 0x20 ++ s

/-- `join("\n")`. -/
def joinLines (lines : List Text) : Text := List.intercalate (text "\n") lines

/-- `center`. -/
def center (s : Text) (w : ℕ) : Text :=
  if s.length ≥ w then s else (text " ").repeat ((w - s.length) / 2) ++ s

/-- `formatKurus`. -/
def formatKurus (intl : Intl) (kurus : ℤ) (currency : Text) : Text :=
  let symbol := if currency = text "TRY" then text "₺" else currency ++ text " "
  symbol ++ intl.toLocaleString kurus (if kurus.tmod 100 = 0 then 0 else 2)

/-- `W`: the columns of the paper. -/
def ticketWidth : ℕ := 32

/-- The rule between the parts of a ticket. -/
def sep : Text := (text "-").repeat ticketWidth

/-- The lines that say a ticket corrects one already sent. -/
def amendmentHead (ticket : Ticket) : List Text :=
  match ticket.amendment with
  | none => []
  | some _ =>
    [(text "*").repeat ticketWidth, center (text "DUZELTME / AMENDED") ticketWidth,
      (text "*").repeat ticketWidth]

/-- The lines of one dish. -/
def TicketLine.render (l : TicketLine) : List Text :=
  (text s!"{l.qty} x " ++ l.name) :: l.modifiers.map (fun m => text "   + " ++ m)
    ++ if l.note = [] then [] else [text "   ! " ++ l.note]

/-- The line of one change. -/
def LineChange.render (c : LineChange) : Text :=
  if c.toQty = 0 then text "  IPTAL/VOID  " ++ c.name
  else text s!"  {c.fromQty} -> {c.toQty}   " ++ c.name

/-- The lines that say what a correction changes. -/
def amendmentChanges (ticket : Ticket) : List Text :=
  match ticket.amendment with
  | none => []
  | some amendment =>
    [sep, text "DEGISIKLIK / CHANGES:"] ++ amendment.changes.map LineChange.render
      ++ [text "  (" ++ amendment.byStaff ++ text ")"]

/-- The lines of a ticket. -/
def ticketLines (intl : Intl) (ticket : Ticket) : List Text :=
  amendmentHead ticket
    ++ [center (intl.toUpperCase ticket.venueName) ticketWidth,
      center (text "*** " ++ ticket.tableName ++ text " ***") ticketWidth,
      (text s!"Siparis #{ticket.orderNumber}").padEnd (ticketWidth - 5)
        ++ intl.toLocaleTimeString ticket.createdAt,
      sep]
    ++ ticket.lines.flatMap TicketLine.render
    ++ amendmentChanges ticket
    ++ [sep,
      (text "TOPLAM: " ++ formatKurus intl ticket.totalKurus ticket.currency).padStart ticketWidth,
      center (text "Odeme kasada / Pay at till") ticketWidth]

/-- **`renderTicketText`**: a plain-text kitchen ticket. -/
def renderTicketText (intl : Intl) (ticket : Ticket) : Text := joinLines (ticketLines intl ticket)

/-- **`renderEscPos`**: the bytes for the printer, before they are written in base64 for the
way to it. -/
def renderEscPos (intl : Intl) (ticket : Ticket) : List UInt8 :=
  [0x1b, 0x40]
    ++ [0x1b, 0x74, 0x0d]
    ++ [0x1b, 0x61, 0x01]
    ++ [0x1d, 0x21, 0x11]
    ++ encodePc857 (ticket.tableName ++ text "\n")
    ++ [0x1d, 0x21, 0x00]
    ++ encodePc857 (ticket.venueName ++ text "\n")
    ++ [0x1b, 0x61, 0x00]
    ++ encodePc857 (renderTicketText intl ticket ++ text "\n\n")
    ++ [0x1d, 0x56, 0x42, 0x03]

/-! ## The round trip -/

/-- The line feed. -/
def lineFeed : UInt16 := 0x0a

/-- The alphabet of the printer: the line feed, printable ASCII, and the letters of the
table. -/
def alphabet : List UInt16 :=
  lineFeed :: (List.range' 0x20 95).map Nat.toUInt16 ++ PC857.flatMap Prod.fst

/-- The text is written in the alphabet. -/
def Text.supported (s : Text) : Bool := List.all s alphabet.contains

/-- What comes back of one character: itself, but for the line feed. -/
def comesBack (u : UInt16) : UInt16 := if u = lineFeed then 0x3f else u

theorem mem_alphabet {s : Text} (hs : s.supported = true) {u : UInt16} (hu : u ∈ s) :
    u ∈ alphabet :=
  List.contains_iff_mem.mp (List.all_eq_true.mp hs u hu)

/-- No letter of the alphabet is half a surrogate pair. -/
theorem alphabet_bmp {u : UInt16} (hu : u ∈ alphabet) : ¬ (0xd800 ≤ u && u < 0xdc00) = true := by
  have hall : alphabet.all (fun u => !(0xd800 ≤ u && u < 0xdc00)) = true := by decide +kernel
  rw [Bool.not_eq_true]
  simpa only [Bool.not_eq_true'] using List.all_eq_true.mp hall u hu

/-- **One character there and back.** -/
theorem decode_encodeChar {u : UInt16} (hu : u ∈ alphabet) :
    decodePc857 (encodeChar [u]) = [comesBack u] := by
  have hall : alphabet.all (fun u => decodePc857 (encodeChar [u]) == [comesBack u]) = true := by
    decide +kernel
  exact beq_iff_eq.mp (List.all_eq_true.mp hall u hu)

/-- A text without surrogates is taken apart code unit by code unit. -/
theorem chars_of_bmp {s : Text} (hs : ∀ u ∈ s, ¬ (0xd800 ≤ u && u < 0xdc00) = true) :
    s.chars = s.map (fun u => [u]) := by
  induction s with
  | nil => rfl
  | cons u s ih =>
    have hrest := ih (fun v hv => hs v (List.mem_cons_of_mem _ hv))
    cases s with
    | nil => rfl
    | cons v rest =>
      have hpair : ¬ (0xd800 ≤ u && u < 0xdc00 && 0xdc00 ≤ v && v < 0xe000) = true := by
        intro h
        rw [Bool.and_eq_true, Bool.and_eq_true] at h
        exact hs u List.mem_cons_self h.1.1
      rw [Text.chars, if_neg hpair, hrest]
      rfl

/-- **A text of the alphabet there and back.** -/
theorem decode_encode {s : Text} (hs : s.supported = true) :
    decodePc857 (encodePc857 s) = s.map comesBack := by
  have hmem : ∀ u ∈ s, u ∈ alphabet := fun u hu => mem_alphabet hs hu
  clear hs
  unfold encodePc857
  rw [chars_of_bmp (fun u hu => alphabet_bmp (hmem u hu))]
  induction s with
  | nil => rfl
  | cons u s ih =>
    have hu := decode_encodeChar (hmem u List.mem_cons_self)
    have hrest := ih (fun v hv => hmem v (List.mem_cons_of_mem _ hv))
    unfold decodePc857 at hu hrest ⊢
    rw [List.map_cons, List.flatMap_cons, List.flatMap_append, hu, hrest]
    rfl

/-- Only the line feed comes back as another character. -/
theorem map_comesBack {s : Text} : s.map comesBack = s ↔ lineFeed ∉ s := by
  induction s with
  | nil => simp
  | cons u s ih =>
    rw [List.map_cons, List.cons.injEq, ih, List.mem_cons, not_or]
    refine and_congr_left (fun _ => ?_)
    unfold comesBack
    by_cases hu : u = lineFeed
    · subst hu
      decide
    · rw [if_neg hu]
      exact ⟨fun _ h => hu h.symm, fun _ => rfl⟩

/-! ## Line breaks -/

theorem fallback_printable : ∀ p ∈ ASCII_FALLBACK, ∀ b ∈ List.map UInt16.toUInt8 p.2,
    0x20 ≤ b ∧ b ≤ 0x7e := by decide +kernel

theorem pc857_high : ∀ p ∈ PC857, 0x80 ≤ p.2 := by decide +kernel

/-- What a lookup finds is in the table. -/
theorem mem_of_lookup {α β : Type} [BEq α] [LawfulBEq α] {l : List (α × β)} {a : α} {b : β}
    (h : l.lookup a = some b) : (a, b) ∈ l := by
  obtain ⟨l₁, l₂, rfl, _⟩ := List.lookup_eq_some_iff.mp h
  exact List.mem_append_right _ List.mem_cons_self

/-- A printable code unit is a printable byte. -/
theorem printable_toUInt8 {u : UInt16} (h : (0x20 ≤ u && u ≤ 0x7e) = true) :
    0x20 ≤ u.toUInt8 ∧ u.toUInt8 ≤ 0x7e := by
  rw [Bool.and_eq_true, decide_eq_true_eq, decide_eq_true_eq] at h
  obtain ⟨hlow, hhigh⟩ := h
  rw [UInt16.le_iff_toNat_le] at hlow hhigh
  have hmod : u.toNat % 256 = u.toNat := Nat.mod_eq_of_lt (lt_of_le_of_lt hhigh (by decide))
  rw [UInt8.le_iff_toNat_le, UInt8.le_iff_toNat_le, UInt16.toNat_toUInt8]
  show 0x20 ≤ u.toNat % 256 ∧ u.toNat % 256 ≤ 0x7e
  rw [hmod]
  exact ⟨hlow, hhigh⟩

/-- **What the encoder writes**, whatever the character: printable ASCII and letters of the
code page. -/
theorem encodeChar_spec (ch : Text) : ∀ b ∈ encodeChar ch,
    (0x20 ≤ b ∧ b ≤ 0x7e) ∨ (b ∈ PC857.map Prod.snd ∧ 0x80 ≤ b) := by
  intro b hb
  unfold encodeChar at hb
  split at hb
  · next fallback h => exact .inl (fallback_printable _ (mem_of_lookup h) b hb)
  · split at hb
    · next mapped h =>
      rw [List.mem_singleton.mp hb]
      exact .inr ⟨List.mem_map_of_mem (mem_of_lookup h), pc857_high _ (mem_of_lookup h)⟩
    · dsimp only at hb
      rw [List.mem_singleton.mp hb]
      split
      · next hcode => exact .inl (printable_toUInt8 hcode)
      · exact .inl (by decide)

theorem encodePc857_spec (s : Text) : ∀ b ∈ encodePc857 s,
    (0x20 ≤ b ∧ b ≤ 0x7e) ∨ (b ∈ PC857.map Prod.snd ∧ 0x80 ≤ b) := by
  intro b hb
  obtain ⟨ch, _, hb⟩ := List.mem_flatMap.mp hb
  exact encodeChar_spec ch b hb

/-- **The encoder never writes a line feed.** -/
theorem encodePc857_no_lineFeed (s : Text) : (0x0a : UInt8) ∉ encodePc857 s := by
  intro h
  rcases encodePc857_spec s _ h with ⟨hlow, _⟩ | ⟨_, hhigh⟩
  · exact absurd hlow (by decide)
  · exact absurd hhigh (by decide)

/-- Two lines joined have a line break. -/
theorem lineFeed_mem_joinLines {a b : Text} {rest : List Text} :
    lineFeed ∈ joinLines (a :: b :: rest) := by
  unfold joinLines
  rw [List.intercalate_cons_cons]
  exact List.mem_append_left _ (List.mem_append_right _ (by decide))

/-- A ticket has lines to break: its venue, its table, its number and more. -/
theorem lineFeed_mem_ticket (intl : Intl) (ticket : Ticket) :
    lineFeed ∈ renderTicketText intl ticket := by
  unfold renderTicketText ticketLines amendmentHead
  cases ticket.amendment with
  | none => exact lineFeed_mem_joinLines
  | some amendment => exact lineFeed_mem_joinLines

/-- No byte of a printed ticket is a line feed. -/
theorem renderEscPos_no_lineFeed (intl : Intl) (ticket : Ticket) :
    (0x0a : UInt8) ∉ renderEscPos intl ticket := by
  unfold renderEscPos
  simp only [List.mem_append, encodePc857_no_lineFeed]
  decide

/-- **Ticket text and the printer's code page**: a text of the alphabet comes back as it
was exactly when it has no line feed; and every ticket has line breaks, none of
which reaches the printer. -/
theorem pc857_survives (s : Text) (hs : s.supported = true) :
    (decodePc857 (encodePc857 s) = s ↔ lineFeed ∉ s)
      ∧ ∀ intl ticket, lineFeed ∈ renderTicketText intl ticket
        ∧ (0x0a : UInt8) ∉ renderEscPos intl ticket := by
  rw [decode_encode hs]
  exact ⟨map_comesBack, fun intl ticket =>
    ⟨lineFeed_mem_ticket intl ticket, renderEscPos_no_lineFeed intl ticket⟩⟩

/-- **Two lines come back as one.** -/
theorem pc857_survives_fails :
    ¬ ∀ s : Text, s.supported = true → decodePc857 (encodePc857 s) = s := by
  intro h
  exact absurd (h (text "a\nb") (by decide +kernel)) (by decide +kernel)

/-- The dish of the test. -/
theorem pc857_survives_dish : decodePc857 (encodePc857 (text "Şiş Köfte")) = text "Şiş Köfte" :=
  (pc857_survives (text "Şiş Köfte") (by decide +kernel)).1.mpr (by decide +kernel)

end Masadan
