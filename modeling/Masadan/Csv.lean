import Mathlib.Data.List.Basic

/-!
# Comma-separated values

A file of records, each of fields. Fields are separated by commas and records by line breaks,
here one symbol each. A field is bare, of symbols that have no other meaning, or it is quoted:
then it may hold any symbols, and a quote in it is doubled. The last record may be followed by
a line break. That is the grammar of RFC 4180, except for the line break that it takes.

`Dialect.read` reads a file symbol by symbol. What is wrong it refuses: a quote inside a bare
field, or anything but a separator after a quoted one. `Cell.render` writes a field, and a file
that is written so reads back as the values that went into it (`read_render`).
-/

namespace Csv

/-- **A dialect**: the symbols with a meaning, and those a bare field may hold. -/
structure Dialect (α : Type) where
  comma : α
  quote : α
  newline : α
  plain : α → Bool
  comma_ne_quote : comma ≠ quote
  newline_ne_quote : newline ≠ quote
  newline_ne_comma : newline ≠ comma
  plain_quote : plain quote = false
  plain_comma : plain comma = false
  plain_newline : plain newline = false

/-- Where a reader is in a field. -/
inductive Mode where
  | start
  | bare
  | quoted
  /-- Behind a quote in a quoted field: the first of two, or the last. -/
  | closing
  deriving DecidableEq

/-- **What has been read**: of a field, of a record, and whole records. -/
structure State (α : Type) where
  mode : Mode
  field : List α
  fields : List (List α)
  records : List (List (List α))

variable {α : Type}

namespace State

/-- The field is at its end. -/
def endField (st : State α) : State α := ⟨.start, [], st.fields ++ [st.field], st.records⟩

/-- The record is at its end. -/
def endRecord (st : State α) : State α :=
  ⟨.start, [], [], st.records ++ [st.fields ++ [st.field]]⟩

def push (st : State α) (mode : Mode) (c : α) : State α :=
  ⟨mode, st.field ++ [c], st.fields, st.records⟩

/-- Nothing of a record has been read. -/
def atRecord (st : State α) : Bool :=
  match st.mode, st.fields with
  | .start, [] => true
  | _, _ => false

/-- What a file is that ends here. -/
def finish (st : State α) : Option (List (List (List α))) :=
  if st.mode = .quoted then none
  else if st.atRecord then some st.records
  else some st.endRecord.records

/-- The state before a record. -/
def before (records : List (List (List α))) : State α := ⟨.start, [], [], records⟩

end State

section

variable [DecidableEq α] (D : Dialect α)

namespace Dialect

/-- A separator after a field. -/
def separator (st : State α) (c : α) : Option (State α) :=
  if c = D.comma then some st.endField
  else if c = D.newline then some st.endRecord
  else none

/-- **One symbol.** -/
def step (st : State α) (c : α) : Option (State α) :=
  match st.mode with
  | .start =>
    if c = D.quote then some { st with mode := .quoted }
    else if D.plain c then some (st.push .bare c)
    else D.separator st c
  | .bare => if D.plain c then some (st.push .bare c) else D.separator st c
  | .quoted => if c = D.quote then some { st with mode := .closing } else some (st.push .quoted c)
  | .closing => if c = D.quote then some (st.push .quoted c) else D.separator st c

/-- Reading on. -/
def run (st : State α) (s : List α) : Option (State α) := s.foldlM D.step st

/-- **Reading a file.** -/
def read (s : List α) : Option (List (List (List α))) := (D.run (.before []) s).bind State.finish

end Dialect

/-! ## Writing -/

/-- **A field to be written**, bare or quoted. -/
inductive Cell (α : Type) where
  | bare (s : List α)
  | quoted (s : List α)

/-- What is doubled in a quoted field. -/
def Dialect.escape (c : α) : List α := if c = D.quote then [c, c] else [c]

def Cell.render : Cell α → List α
  | .bare s => s
  | .quoted s => D.quote :: s.flatMap D.escape ++ [D.quote]

/-- What it is to be read as. -/
def Cell.value : Cell α → List α
  | .bare s => s
  | .quoted s => s

/-- A bare field holds only symbols that have no meaning. -/
def Cell.Fits : Cell α → Prop
  | .bare s => ∀ c ∈ s, D.plain c = true
  | .quoted _ => True

def renderRecord (cells : List (Cell α)) : List α :=
  List.intercalate [D.comma] (cells.map (Cell.render D))

/-- **Writing a file.** -/
def render (records : List (List (Cell α))) : List α :=
  List.intercalate [D.newline] (records.map (renderRecord D))

/-! ## Reading back -/

/-- Where a field leaves a reader. -/
def Cell.after : Cell α → Mode
  | .bare [] => .start
  | .bare _ => .bare
  | .quoted _ => .closing

variable {D}

theorem run_append (st : State α) (s t : List α) :
    D.run st (s ++ t) = (D.run st s).bind (fun st' => D.run st' t) :=
  List.foldlM_append

theorem run_cons (st : State α) (c : α) (s : List α) :
    D.run st (c :: s) = (D.step st c).bind (fun st' => D.run st' s) :=
  List.foldlM_cons

theorem step_plain {st : State α} {c : α} (hc : D.plain c = true)
    (hmode : st.mode = .start ∨ st.mode = .bare) : D.step st c = some (st.push .bare c) := by
  have hquote : c ≠ D.quote := fun h => by
    rw [h, D.plain_quote] at hc
    cases hc
  unfold Dialect.step
  rcases hmode with hmode | hmode
  · rw [hmode]
    exact (if_neg hquote).trans (if_pos hc)
  · rw [hmode]
    exact if_pos hc

/-- A bare field, from where one has begun. -/
theorem run_bare {s : List α} (hs : ∀ c ∈ s, D.plain c = true) (field : List α)
    (fields : List (List α)) (records : List (List (List α))) :
    D.run ⟨.bare, field, fields, records⟩ s = some ⟨.bare, field ++ s, fields, records⟩ := by
  induction s generalizing field with
  | nil =>
    rw [List.append_nil]
    rfl
  | cons c s ih =>
    obtain ⟨hc, hrest⟩ := List.forall_mem_cons.mp hs
    rw [run_cons, step_plain hc (.inr rfl), Option.bind_some]
    refine (ih hrest _).trans ?_
    rw [List.append_assoc, List.singleton_append]

/-- What is inside the quotes. -/
theorem run_escaped (s : List α) (field : List α) (fields : List (List α))
    (records : List (List (List α))) :
    D.run ⟨.quoted, field, fields, records⟩ (s.flatMap D.escape)
      = some ⟨.quoted, field ++ s, fields, records⟩ := by
  induction s generalizing field with
  | nil =>
    rw [List.append_nil]
    rfl
  | cons c s ih =>
    have hsymbol : D.run ⟨.quoted, field, fields, records⟩ (D.escape c)
        = some ⟨.quoted, field ++ [c], fields, records⟩ := by
      unfold Dialect.escape
      by_cases hc : c = D.quote
      · -- the first of two quotes is no end
        have hfirst : D.step ⟨.quoted, field, fields, records⟩ c
            = some ⟨.closing, field, fields, records⟩ := if_pos hc
        have hsecond : D.step ⟨.closing, field, fields, records⟩ c
            = some ⟨.quoted, field ++ [c], fields, records⟩ := if_pos hc
        rw [if_pos hc, run_cons, hfirst, Option.bind_some, run_cons, hsecond]
        rfl
      · have hstep : D.step ⟨.quoted, field, fields, records⟩ c
            = some ⟨.quoted, field ++ [c], fields, records⟩ := if_neg hc
        rw [if_neg hc, run_cons, hstep]
        rfl
    rw [List.flatMap_cons, run_append, hsymbol, Option.bind_some, ih, List.append_assoc,
      List.singleton_append]

/-- **A field reads as its value.** -/
theorem run_cell {cell : Cell α} (h : cell.Fits D) (fields : List (List α))
    (records : List (List (List α))) :
    D.run ⟨.start, [], fields, records⟩ (cell.render D)
      = some ⟨cell.after, cell.value, fields, records⟩ := by
  cases cell with
  | bare s =>
    cases s with
    | nil => rfl
    | cons c s =>
      obtain ⟨hc, hrest⟩ := List.forall_mem_cons.mp (show ∀ d ∈ c :: s, D.plain d = true from h)
      show D.run _ (c :: s) = _
      rw [run_cons, step_plain hc (.inl rfl), Option.bind_some]
      exact run_bare hrest _ _ _
  | quoted s =>
    show D.run _ (D.quote :: (s.flatMap D.escape ++ [D.quote])) = _
    have hopen : D.step ⟨.start, [], fields, records⟩ D.quote
        = some ⟨.quoted, [], fields, records⟩ := if_pos rfl
    have hclose : D.run ⟨.quoted, [] ++ s, fields, records⟩ [D.quote]
        = some ⟨.closing, s, fields, records⟩ := by
      simp [Dialect.run, Dialect.step]
    rw [run_cons, hopen, Option.bind_some, run_append, run_escaped, Option.bind_some, hclose]
    rfl

omit [DecidableEq α] in
theorem Cell.after_ne_quoted (cell : Cell α) : cell.after ≠ .quoted := by
  cases cell with
  | bare s => cases s <;> exact fun h => by cases h
  | quoted s => exact fun h => by cases h

/-- A separator ends a field. -/
theorem step_separator {st : State α} {c : α} (hmode : st.mode ≠ .quoted) (hquote : c ≠ D.quote)
    (hplain : D.plain c = false) : D.step st c = D.separator st c := by
  unfold Dialect.step
  cases hm : st.mode with
  | start =>
    dsimp only
    rw [if_neg hquote, if_neg (by rw [hplain]; exact Bool.false_ne_true)]
  | bare =>
    dsimp only
    rw [if_neg (by rw [hplain]; exact Bool.false_ne_true)]
  | quoted => exact absurd hm hmode
  | closing =>
    dsimp only
    rw [if_neg hquote]

theorem step_comma {st : State α} (hmode : st.mode ≠ .quoted) :
    D.step st D.comma = some st.endField :=
  (step_separator hmode D.comma_ne_quote D.plain_comma).trans (if_pos rfl)

theorem step_newline {st : State α} (hmode : st.mode ≠ .quoted) :
    D.step st D.newline = some st.endRecord :=
  (step_separator hmode D.newline_ne_quote D.plain_newline).trans
    ((if_neg D.newline_ne_comma).trans (if_pos rfl))

omit [DecidableEq α] in
theorem atRecord_false {cell : Cell α} {value : List α} {fields : List (List α)}
    {records : List (List (List α))} (h : fields ≠ [] ∨ cell ≠ .bare []) :
    State.atRecord ⟨cell.after, value, fields, records⟩ = false := by
  cases fields with
  | cons f fields => cases cell.after <;> rfl
  | nil =>
    cases cell with
    | quoted s => rfl
    | bare s =>
      cases s with
      | nil => exact absurd rfl (h.resolve_left (fun hnil => hnil rfl))
      | cons c s => rfl

/-- What a reader has read at the end of a record, before it knows that it ends. -/
structure AtEnd (values : List (List α)) (records : List (List (List α))) (st : State α) :
    Prop where
  mode : st.mode ≠ .quoted
  values : st.fields ++ [st.field] = values
  records : st.records = records
  begun : st.atRecord = false

/-- **A record reads as the values of its fields.** A record of one field has to show that it is
there. -/
theorem run_record {cells : List (Cell α)} (hne : cells ≠ []) (hfit : ∀ c ∈ cells, c.Fits D)
    {fields : List (List α)} (records : List (List (List α)))
    (hbegun : fields ≠ [] ∨ cells ≠ [.bare []]) :
    ∃ st, D.run ⟨.start, [], fields, records⟩ (renderRecord D cells) = some st
      ∧ AtEnd (fields ++ cells.map Cell.value) records st := by
  induction cells generalizing fields with
  | nil => exact absurd rfl hne
  | cons cell cells ih =>
    obtain ⟨hcell, hrest⟩ := List.forall_mem_cons.mp hfit
    cases cells with
    | nil =>
      have hsingle : renderRecord D [cell] = cell.render D := List.intercalate_singleton
      rw [hsingle]
      exact ⟨_, run_cell hcell fields records, cell.after_ne_quoted, rfl, rfl,
        atRecord_false (hbegun.imp_right (fun h hbare => h (by rw [hbare])))⟩
    | cons next cells =>
      have hsplit : renderRecord D (cell :: next :: cells)
          = cell.render D ++ (D.comma :: renderRecord D (next :: cells)) := by
        unfold renderRecord
        rw [List.map_cons, List.map_cons, List.intercalate_cons_cons, List.append_assoc,
          List.singleton_append]
      have hcomma : D.step ⟨cell.after, cell.value, fields, records⟩ D.comma
          = some ⟨.start, [], fields ++ [cell.value], records⟩ := step_comma cell.after_ne_quoted
      obtain ⟨st, hrun, hend⟩ := ih (List.cons_ne_nil _ _) hrest
        (.inl (List.append_ne_nil_of_right_ne_nil fields (List.cons_ne_nil cell.value [])))
      refine ⟨st, ?_, ?_⟩
      · rw [hsplit, run_append, run_cell hcell, Option.bind_some, run_cons, hcomma,
          Option.bind_some, hrun]
      · rw [List.append_assoc, List.singleton_append] at hend
        exact hend

omit [DecidableEq α] in
theorem AtEnd.endRecord {values : List (List α)} {records : List (List (List α))} {st : State α}
    (h : AtEnd values records st) : st.endRecord = .before (records ++ [values]) := by
  unfold State.endRecord State.before
  rw [h.values, h.records]

omit [DecidableEq α] in
theorem AtEnd.finish {values : List (List α)} {records : List (List (List α))} {st : State α}
    (h : AtEnd values records st) : st.finish = some (records ++ [values]) := by
  unfold State.finish
  rw [if_neg h.mode, h.begun, h.endRecord]
  rfl

/-- **A file that is written reads back**: as its records, each as the values of its fields. -/
theorem read_render {records : List (List (Cell α))} (hne : records ≠ [])
    (hcells : ∀ r ∈ records, r ≠ [] ∧ r ≠ [.bare []]) (hfit : ∀ r ∈ records, ∀ c ∈ r, c.Fits D) :
    D.read (render D records) = some (records.map (fun r => r.map Cell.value)) := by
  suffices h : ∀ done : List (List (List α)),
      (D.run (.before done) (render D records)).bind State.finish
        = some (done ++ records.map (fun r => r.map Cell.value)) from h []
  induction records with
  | nil => exact absurd rfl hne
  | cons record records ih =>
    intro done
    obtain ⟨⟨hrecord, hbegun⟩, hcells⟩ := List.forall_mem_cons.mp hcells
    obtain ⟨hfirst, hfit⟩ := List.forall_mem_cons.mp hfit
    obtain ⟨st, hrun, hend⟩ := run_record hrecord hfirst done (.inr hbegun)
    rw [List.nil_append] at hend
    have hrun : D.run (.before done) (renderRecord D record) = some st := hrun
    cases records with
    | nil =>
      have hsingle : render D [record] = renderRecord D record := List.intercalate_singleton
      rw [hsingle, hrun, Option.bind_some, hend.finish]
      rfl
    | cons next records =>
      have hsplit : render D (record :: next :: records)
          = renderRecord D record ++ (D.newline :: render D (next :: records)) := by
        unfold render
        rw [List.map_cons, List.map_cons, List.intercalate_cons_cons, List.append_assoc,
          List.singleton_append]
      have hnewline : D.step st D.newline = some (.before (done ++ [record.map Cell.value])) :=
        (step_newline hend.mode).trans (congrArg some hend.endRecord)
      rw [hsplit, run_append, hrun, Option.bind_some, run_cons, hnewline, Option.bind_some,
        ih (List.cons_ne_nil _ _) hcells hfit, List.append_assoc, List.singleton_append]
      rfl

end

end Csv
