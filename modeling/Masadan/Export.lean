import Masadan.Calendar
import Masadan.Csv
import Masadan.OrderLog

/-!
# The exported order log

`src/app/api/admin/orders/export/route.ts`: the orders of a range of days as a file of
comma-separated values, a record for each line of an order.

The texts in a record are the guests' and the menu's, and the file is opened in a spreadsheet.
So they are quoted, and one that a spreadsheet would take for a formula is put behind an
apostrophe (`esc`). The other fields are numbers, times and names of states, which need no
quotes. Whatever the texts are, the file reads back as one record of fifteen fields for each
line (`csv_parses_back`).
-/

namespace Masadan

/-! ## Numbers and times as texts -/

/-- The decimal digits of a number. -/
def decimal (n : ℕ) : Text := (Nat.toDigits 10 n).map (fun c => c.toNat.toUInt16)

/-- So many digits at least. -/
def padded (width n : ℕ) : Text :=
  List.replicate (width - (decimal n).length) 0x30 ++ decimal n

/-- `toFixed(2)`, of a number below 10 ^ 21. Of two texts as near to it, the greater. -/
def toFixed2 (x : ℚ) : Text :=
  let size := if x < 0 then -x else x
  let n := (size * 100 + mkRat 1 2).floor.toNat
  (if x < 0 then text "-" else []) ++ decimal (n / 100) ++ text "." ++ padded 2 (n % 100)

/-- The year of a time: of four digits, or of six with a sign. -/
def isoYear (y : ℤ) : Text :=
  if 0 ≤ y ∧ y ≤ 9999 then padded 4 y.toNat
  else (if y < 0 then text "-" else text "+") ++ padded 6 y.natAbs

/-- `toISOString()`. -/
def toISOString (t : Time) : Text :=
  let d := Calendar.day t
  let ms := (Calendar.timeWithinDay t).toNat
  isoYear (Calendar.yearOf d) ++ text "-" ++ padded 2 (Calendar.monthOf d + 1).toNat ++ text "-"
    ++ padded 2 (Calendar.dateOf d).toNat ++ text "T" ++ padded 2 (ms / 3600000) ++ text ":"
    ++ padded 2 (ms / 60000 % 60) ++ text ":" ++ padded 2 (ms / 1000 % 60) ++ text "."
    ++ padded 3 (ms % 1000) ++ text "Z"

def OrderStatus.text : OrderStatus → Text
  | .received => Masadan.text "received"
  | .accepted => Masadan.text "accepted"
  | .preparing => Masadan.text "preparing"
  | .ready => Masadan.text "ready"
  | .served => Masadan.text "served"
  | .rejected => Masadan.text "rejected"
  | .cancelled => Masadan.text "cancelled"

def PaymentStatus.text : PaymentStatus → Text
  | .unpaid => Masadan.text "unpaid"
  | .pending => Masadan.text "pending"
  | .paid => Masadan.text "paid"
  | .refunded => Masadan.text "refunded"

def PaymentMethod.text : PaymentMethod → Text
  | .cash => Masadan.text "cash"
  | .card => Masadan.text "card"

def ClosedReason.text : ClosedReason → Text
  | .settled => Masadan.text "settled"
  | .abandoned => Masadan.text "abandoned"

/-! ## The file -/

/-- A line of an order as the export reads it. `modifiers` are their names. -/
structure ExportItem where
  nameSnapshot : Text
  qty : ℕ
  unitPriceKurus : ℤ
  note : Text
  modifiers : List Text
  deriving DecidableEq

/-- An order as the export reads it, with the name of its table and what it needs of its
visit. -/
structure ExportOrder where
  number : ℕ
  createdAt : Time
  tableName : Text
  status : OrderStatus
  rejectReason : Option Text
  totalKurus : ℤ
  paymentStatus : PaymentStatus
  paymentMethod : Option PaymentMethod
  closedReason : Option ClosedReason
  items : List ExportItem
  deriving DecidableEq

/-- `/^[=+\-@\t\r]/`: a spreadsheet may take the text for a formula. -/
def startsFormula : Text → Bool
  | [] => false
  | u :: _ => [0x3d, 0x2b, 0x2d, 0x40, 0x09, 0x0d].contains u

/-- **A text as a field**: behind an apostrophe, if it may be taken for a formula, and quoted. -/
def esc (s : Text) : Text :=
  let safe := if startsFormula s then 0x27 :: s else s
  0x22 :: List.flatMap (fun u => if u = 0x22 then [0x22, 0x22] else [u]) safe ++ [0x22]

def exportHeader : List Text :=
  [text "order_number", text "created_at", text "table", text "status", text "reject_reason",
    text "item", text "qty", text "unit_price_try", text "line_total_try", text "note",
    text "modifiers", text "order_total_try", text "payment_status", text "payment_method",
    text "visit_outcome"]

/-- `(kurus / 100).toFixed(2)`. -/
def inLira (kurus : ℚ) : Text := toFixed2 (JsNumber.nearest (kurus * mkRat 1 100))

/-- The fields of a line. -/
def exportFields (o : ExportOrder) (i : ExportItem) : List Text :=
  [decimal o.number,
    toISOString o.createdAt,
    esc o.tableName,
    o.status.text,
    esc (o.rejectReason.getD []),
    esc i.nameSnapshot,
    decimal i.qty,
    inLira i.unitPriceKurus,
    inLira (JsNumber.nearest (i.unitPriceKurus * i.qty : ℤ)),
    esc i.note,
    esc (List.intercalate (text "; ") i.modifiers),
    inLira o.totalKurus,
    o.paymentStatus.text,
    (o.paymentMethod.map PaymentMethod.text).getD [],
    (o.closedReason.map ClosedReason.text).getD []]

/-- The lines of the orders, each with its order. -/
def exportRows (orders : List ExportOrder) : List (ExportOrder × ExportItem) :=
  orders.flatMap (fun o => o.items.map (fun i => (o, i)))

/-- **The file**: the header, and a record for each line. -/
def exportCsv (orders : List ExportOrder) : Text :=
  List.intercalate (text "\n") ((exportHeader :: (exportRows orders).map (fun r =>
    exportFields r.1 r.2)).map (List.intercalate (text ",")))

/-! ## `GET /api/admin/orders/export` -/

/-- The days that are asked for, thirty if that is no number of days. -/
def exportDays (raw : Option Text) : ℚ :=
  match JsNumber.ofParam raw with
  | .finite requested => if 0 < requested then min requested 365 else 30
  | _ => 30

/-- An order with all its lines, its table and its visit. -/
def World.exportOrder (w : World) (r : Id × Order) : ExportOrder :=
  let visit := r.2.visitId.bind w.tableVisits.get?
  { number := r.2.number
    createdAt := r.2.createdAt
    tableName := ((w.tables.get? r.2.tableId).map (fun t => t.name)).getD []
    status := r.2.status
    rejectReason := r.2.rejectReason
    totalKurus := r.2.totalKurus
    paymentStatus := r.2.paymentStatus
    paymentMethod := visit.bind (fun v => v.paymentMethod)
    closedReason := visit.bind (fun v => v.closedReason)
    items := (w.orderItems.filter (fun _ i => i.orderId == r.1)).map (fun i =>
      ⟨i.2.nameSnapshot, i.2.qty, i.2.unitPriceKurus, i.2.note, i.2.modifiers.map Prod.fst⟩) }

/-- The venue's orders that are younger than so, by time. -/
def World.exportOrders (w : World) (venueId : Id) (since : Time) : List ExportOrder :=
  (orderBy (fun r => r.2.createdAt) (w.logRows venueId since)).map w.exportOrder

inductive ExportAnswer where
  | unauthorized
  /-- A file, named after the days. -/
  | file (days : ℚ) (csv : Text)
  deriving DecidableEq

/-- The HTTP status of an answer. -/
def ExportAnswer.status : ExportAnswer → ℕ
  | .unauthorized => 401
  | .file _ _ => 200

/-- **`GET /api/admin/orders/export`.** -/
def getExport (staff : Option StaffClaims) (days : Option Text) : Api ExportAnswer := do
  match staff with
  | none => return .unauthorized
  | some staff =>
    let now ← query (fun w => w.now)
    let orders ← query (fun w => w.exportOrders staff.venueId (logSince (exportDays days) now))
    return .file (exportDays days) (exportCsv orders)

/-- Undisturbed, the route answers with the file of the orders at its time. -/
theorem getExport_file (w : World) (staff : StaffClaims) (days : Option Text) :
    Alone (fun w' x => w' = w ∧ x = .ok (.file (exportDays days)
        (exportCsv (w.exportOrders staff.venueId (logSince (exportDays days) w.now)))))
      (getExport (some staff) days) w := by
  unfold getExport
  exact alone_query (alone_query ⟨rfl, rfl⟩)

/-! ## Reading it back -/

/-- **The file's dialect**: that of RFC 4180, with line feeds between records. A bare field is
of printable characters below 128 that are no comma and no quote. -/
def csv : Csv.Dialect UInt16 where
  comma := 0x2c
  quote := 0x22
  newline := 0x0a
  plain u := 0x20 ≤ u && u ≤ 0x7e && u != 0x22 && u != 0x2c
  comma_ne_quote := by decide
  newline_ne_quote := by decide
  newline_ne_comma := by decide
  plain_quote := by decide
  plain_comma := by decide
  plain_newline := by decide

/-- A text that needs no quotes. -/
def Plain (s : Text) : Prop := ∀ u ∈ s, csv.plain u = true

instance (s : Text) : Decidable (Plain s) :=
  decidable_of_iff (List.all s csv.plain = true) List.all_eq_true

theorem Plain.append {s t : Text} (hs : Plain s) (ht : Plain t) : Plain (s ++ t) :=
  List.forall_mem_append.mpr ⟨hs, ht⟩

theorem plain_decimal (n : ℕ) : Plain (decimal n) := by
  intro u hu
  obtain ⟨c, hc, rfl⟩ := List.mem_map.mp hu
  have hdigit := Nat.isDigit_of_mem_toDigits (by decide) (by decide) hc
  have hplain : ∀ n < 58, 48 ≤ n → csv.plain (Nat.toUInt16 n) = true := by decide
  obtain ⟨hlow, hhigh⟩ := Char.isDigit_iff_toNat.mp hdigit
  exact hplain c.toNat (Nat.lt_succ_of_le hhigh) hlow

theorem plain_padded (width n : ℕ) : Plain (padded width n) := by
  refine Plain.append (fun u hu => ?_) (plain_decimal n)
  rw [(List.mem_replicate.mp hu).2]
  decide

theorem plain_toFixed2 (x : ℚ) : Plain (toFixed2 x) := by
  unfold toFixed2
  refine Plain.append (Plain.append (Plain.append ?_ (plain_decimal _)) (by decide))
    (plain_padded _ _)
  split
  · decide
  · decide

theorem plain_toISOString (t : Time) : Plain (toISOString t) := by
  have hyear : ∀ y, Plain (isoYear y) := by
    intro y
    unfold isoYear
    split
    · exact plain_padded _ _
    · refine Plain.append ?_ (plain_padded _ _)
      split
      · decide
      · decide
  unfold toISOString
  exact (hyear _).append (by decide) |>.append (plain_padded _ _) |>.append (by decide)
    |>.append (plain_padded _ _) |>.append (by decide) |>.append (plain_padded _ _)
    |>.append (by decide) |>.append (plain_padded _ _) |>.append (by decide)
    |>.append (plain_padded _ _) |>.append (by decide) |>.append (plain_padded _ _)
    |>.append (by decide)

theorem OrderStatus.plain_text (s : OrderStatus) : Plain s.text := by
  cases s <;> decide

theorem PaymentStatus.plain_text (s : PaymentStatus) : Plain s.text := by
  cases s <;> decide

/-- The name of a visit's outcome, or nothing. -/
theorem plain_optional {α : Type} {f : α → Text} (hf : ∀ a, Plain (f a)) (o : Option α) :
    Plain ((o.map f).getD []) := by
  cases o with
  | none => exact fun u hu => absurd hu List.not_mem_nil
  | some a => exact hf a

/-- A text as it is meant to be read: behind an apostrophe, if it may be taken for a formula. -/
def guarded (s : Text) : Text := if startsFormula s then 0x27 :: s else s

theorem guarded_safe (s : Text) : startsFormula (guarded s) = false := by
  unfold guarded
  split
  · rfl
  · next h => exact Bool.eq_false_iff.mpr h

/-- A line's fields, as they are written. -/
def exportCells (o : ExportOrder) (i : ExportItem) : List (Csv.Cell UInt16) :=
  [.bare (decimal o.number),
    .bare (toISOString o.createdAt),
    .quoted (guarded o.tableName),
    .bare o.status.text,
    .quoted (guarded (o.rejectReason.getD [])),
    .quoted (guarded i.nameSnapshot),
    .bare (decimal i.qty),
    .bare (inLira i.unitPriceKurus),
    .bare (inLira (JsNumber.nearest (i.unitPriceKurus * i.qty : ℤ))),
    .quoted (guarded i.note),
    .quoted (guarded (List.intercalate (text "; ") i.modifiers)),
    .bare (inLira o.totalKurus),
    .bare o.paymentStatus.text,
    .bare ((o.paymentMethod.map PaymentMethod.text).getD []),
    .bare ((o.closedReason.map ClosedReason.text).getD [])]

/-- What is escaped is a quoted field. -/
theorem esc_eq (s : Text) : esc s = (Csv.Cell.quoted (guarded s)).render csv := by
  show 0x22 :: List.flatMap (fun u => if u = 0x22 then [0x22, 0x22] else [u]) (guarded s) ++ [0x22]
    = 0x22 :: List.flatMap csv.escape (guarded s) ++ [0x22]
  have hsame : (fun u : UInt16 => if u = 0x22 then [0x22, 0x22] else [u]) = csv.escape := by
    funext u
    unfold Csv.Dialect.escape
    by_cases hu : u = 0x22
    · subst hu
      rfl
    · rw [if_neg hu, if_neg (show u ≠ csv.quote from hu)]
  rw [hsame]

theorem exportFields_eq (o : ExportOrder) (i : ExportItem) :
    exportFields o i = (exportCells o i).map (Csv.Cell.render csv) := by
  unfold exportFields exportCells
  rw [esc_eq, esc_eq, esc_eq, esc_eq, esc_eq]
  rfl

theorem exportCells_fit (o : ExportOrder) (i : ExportItem) : ∀ c ∈ exportCells o i, c.Fits csv := by
  unfold exportCells
  simp only [List.forall_mem_cons]
  exact ⟨plain_decimal _, plain_toISOString _, trivial, o.status.plain_text, trivial, trivial,
    plain_decimal _, plain_toFixed2 _, plain_toFixed2 _, trivial, trivial, plain_toFixed2 _,
    o.paymentStatus.plain_text, plain_optional (fun m => by cases m <;> decide) _,
    plain_optional (fun r => by cases r <;> decide) _, fun c hc => absurd hc List.not_mem_nil⟩

/-- The file as it is written. -/
def exportRecords (orders : List ExportOrder) : List (List (Csv.Cell UInt16)) :=
  exportHeader.map .bare :: (exportRows orders).map (fun r => exportCells r.1 r.2)

theorem exportCsv_eq (orders : List ExportOrder) :
    exportCsv orders = Csv.render csv (exportRecords orders) := by
  have hheader : List.intercalate (text ",") exportHeader
      = Csv.renderRecord csv (exportHeader.map .bare) := by
    unfold Csv.renderRecord
    rw [List.map_map]
    exact congrArg _ (List.map_id _).symm
  have hrow : ∀ r : ExportOrder × ExportItem, List.intercalate (text ",") (exportFields r.1 r.2)
      = Csv.renderRecord csv (exportCells r.1 r.2) :=
    fun r => congrArg _ (exportFields_eq r.1 r.2)
  unfold exportCsv exportRecords Csv.render
  rw [List.map_cons, List.map_cons, List.map_map, List.map_map, hheader]
  exact congrArg (fun f => List.intercalate (text "\n") (_ :: List.map f (exportRows orders)))
    (funext hrow)

/-- Each record has its fields, which have to be quoted only where they are. -/
theorem exportRecords_fit (orders : List ExportOrder) : ∀ r ∈ exportRecords orders,
    (r ≠ [] ∧ r ≠ [.bare []]) ∧ ∀ c ∈ r, c.Fits csv := by
  have hlength : ∀ r : List (Csv.Cell UInt16), r.length = 15 → r ≠ [] ∧ r ≠ [.bare []] := by
    intro r hr
    constructor
    · rintro rfl
      cases hr
    · rintro rfl
      cases hr
  intro r hr
  rcases List.mem_cons.mp hr with rfl | hr
  · refine ⟨hlength _ rfl, fun c hc => ?_⟩
    obtain ⟨s, hs, rfl⟩ := List.mem_map.mp hc
    exact (show ∀ s ∈ exportHeader, Plain s by decide) s hs
  · obtain ⟨row, _, rfl⟩ := List.mem_map.mp hr
    exact ⟨hlength _ rfl, exportCells_fit row.1 row.2⟩

/-- **What a text reads as**: itself, behind one apostrophe if it may be taken for a formula. -/
def Decodes (s field : Text) : Prop :=
  if startsFormula s then field = text "'" ++ s else field = s

theorem decodes_guarded (s : Text) : Decodes s (guarded s) := by
  unfold Decodes guarded
  split
  · rfl
  · rfl

/-- **What a line reads as**: fifteen fields, of which five are texts. -/
structure ReadsAs (o : ExportOrder) (i : ExportItem) (record : List Text) : Prop where
  width : record.length = 15
  fields : ∃ table reason item note modifiers,
    record = [decimal o.number, toISOString o.createdAt, table, o.status.text, reason, item,
      decimal i.qty, inLira i.unitPriceKurus,
      inLira (JsNumber.nearest (i.unitPriceKurus * i.qty : ℤ)), note, modifiers,
      inLira o.totalKurus, o.paymentStatus.text,
      (o.paymentMethod.map PaymentMethod.text).getD [],
      (o.closedReason.map ClosedReason.text).getD []]
    ∧ Decodes o.tableName table ∧ Decodes (o.rejectReason.getD []) reason
    ∧ Decodes i.nameSnapshot item ∧ Decodes i.note note
    ∧ Decodes (List.intercalate (text "; ") i.modifiers) modifiers
    ∧ ∀ field ∈ [table, reason, item, note, modifiers], startsFormula field = false

theorem exportCells_read (o : ExportOrder) (i : ExportItem) :
    ReadsAs o i ((exportCells o i).map Csv.Cell.value) := by
  refine ⟨rfl, guarded o.tableName, guarded (o.rejectReason.getD []), guarded i.nameSnapshot,
    guarded i.note, guarded (List.intercalate (text "; ") i.modifiers), rfl, decodes_guarded _,
    decodes_guarded _, decodes_guarded _, decodes_guarded _, decodes_guarded _,
    fun field hfield => ?_⟩
  simp only [List.mem_cons, List.not_mem_nil, or_false] at hfield
  rcases hfield with rfl | rfl | rfl | rfl | rfl <;> exact guarded_safe _

/-- **The file parses back**: as the header, and then one record for each line of the orders, in
their order, whatever their texts are. -/
theorem csv_parses_back (orders : List ExportOrder) :
    ∃ records, csv.read (exportCsv orders) = some (exportHeader :: records)
      ∧ exportHeader.length = 15
      ∧ List.Forall₂ (fun row record => ReadsAs row.1 row.2 record)
        (orders.flatMap (fun o => o.items.map (fun i => (o, i)))) records := by
  have hfit := exportRecords_fit orders
  have hread : csv.read (exportCsv orders)
      = some ((exportRecords orders).map (fun r => r.map Csv.Cell.value)) := by
    rw [exportCsv_eq]
    exact Csv.read_render (List.cons_ne_nil _ _) (fun r hr => (hfit r hr).1)
      (fun r hr => (hfit r hr).2)
  have hheader : (exportHeader.map Csv.Cell.bare).map Csv.Cell.value = exportHeader := by
    rw [List.map_map]
    exact List.map_id _
  refine ⟨(exportRows orders).map (fun r => (exportCells r.1 r.2).map Csv.Cell.value), ?_, rfl, ?_⟩
  · rw [hread]
    unfold exportRecords
    rw [List.map_cons, hheader, List.map_map]
    rfl
  · show List.Forall₂ _ (exportRows orders) _
    rw [List.forall₂_map_right_iff]
    exact List.forall₂_same.mpr (fun row _ => exportCells_read row.1 row.2)

example : csv.read (exportCsv [⟨1, 1789552800000, text "Masa 1", .served, none, 9000, .paid,
      some .cash, some .settled, [⟨text "Kahve", 1, 9000, text "=1,\"2\"\n", []⟩]⟩])
    = some [exportHeader, [text "1", text "2026-09-16T10:00:00.000Z", text "Masa 1", text "served",
      [], text "Kahve", text "1", text "90.00", text "90.00", text "'=1,\"2\"\n", [],
      text "90.00", text "paid", text "cash", text "settled"]] := by
  decide +kernel

end Masadan
