import Mathlib.Data.List.Basic

/-!
# Text with commands in it

A device takes one stream and reads two things off it: text, a symbol at a time, and
commands of several symbols, which drive it. What it reads depends on what it has read
before, so a text may begin a command, or be taken for the rest of one.

A stream is `Woven` of commands if it is these commands in their order, with inert symbols
between them. Whatever reads inert symbols as text and knows the commands reads off a woven
stream just these commands, and for the rest single symbols that are inert (`Woven.reads`).
-/

/-- **The stream is the commands in their order**, with inert symbols between them. -/
inductive Woven {α : Type} (inert : α → Prop) : List (List α) → List α → Prop where
  | done : Woven inert [] []
  | text {commands : List (List α)} {stream : List α} (b : α) (hb : inert b)
      (h : Woven inert commands stream) : Woven inert commands (b :: stream)
  | command {commands : List (List α)} {stream : List α} (c : List α)
      (h : Woven inert commands stream) : Woven inert (c :: commands) (c ++ stream)

/-- A device that reads a stream: after some symbols of a command, whether it waits for
more. -/
structure Reader (α : Type) where
  more : List α → Bool

namespace Reader

variable {α : Type}

/-- **Reading on**, with so much of a command read. Each entry is a symbol of text or a
command; a command that is cut off is none. -/
def read (r : Reader α) : List α → List α → List (List α)
  | _, [] => []
  | pending, b :: rest =>
    if r.more (pending ++ [b]) then r.read (pending ++ [b]) rest
    else (pending ++ [b]) :: r.read [] rest

/-- The commands that are read: what is longer than a symbol. -/
def commands (r : Reader α) (stream : List α) : List (List α) :=
  (r.read [] stream).filter (fun t => decide (1 < t.length))

/-- The device takes the symbols for one command. -/
structure Knows (r : Reader α) (c : List α) : Prop where
  long : 1 < c.length
  whole : r.more c = false
  begun : ∀ n < c.length, 0 < n → r.more (c.take n) = true

variable {r : Reader α}

/-- A known command is read to its end. -/
theorem Knows.read_on {c : List α} (h : r.Knows c) (stream : List α) :
    ∀ pending rest : List α, rest ≠ [] → pending ++ rest = c →
      r.read pending (rest ++ stream) = c :: r.read [] stream := by
  intro pending rest
  induction rest generalizing pending with
  | nil => exact fun hne => absurd rfl hne
  | cons b rest ih =>
    intro _ hc
    rw [List.cons_append, read]
    by_cases hlast : rest = []
    · rw [hlast] at hc ⊢
      rw [hc, h.whole, List.nil_append]
      rfl
    · have hsplit : (pending ++ [b]) ++ rest = c := by
        rw [List.append_assoc]
        exact hc
      have htake : c.take (pending ++ [b]).length = pending ++ [b] := by
        rw [← hsplit]
        exact List.take_left
      have hlength := congrArg List.length hsplit
      rw [List.length_append] at hlength
      have hleft := List.length_pos_iff.mpr hlast
      have hmore := h.begun (pending ++ [b]).length (by omega) (by simp)
      rw [htake] at hmore
      rw [hmore, if_pos rfl]
      exact ih _ hlast hsplit

theorem Knows.read {c : List α} (h : r.Knows c) (stream : List α) :
    r.read [] (c ++ stream) = c :: r.read [] stream := by
  refine h.read_on stream [] c (fun hnil => ?_) rfl
  have hlong := h.long
  rw [hnil] at hlong
  cases hlong

end Reader

namespace Woven

variable {α : Type} {inert : α → Prop} {commands : List (List α)} {stream : List α}

/-- Any number of inert symbols in front. -/
theorem texts (h : Woven inert commands stream) {bs : List α} (hbs : ∀ b ∈ bs, inert b) :
    Woven inert commands (bs ++ stream) := by
  induction bs with
  | nil => exact h
  | cons b bs ih =>
    obtain ⟨hb, hrest⟩ := List.forall_mem_cons.mp hbs
    exact .text b hb (ih hrest)

/-- **What is read off a woven stream**: its commands in their order, and inert symbols. -/
theorem reads (h : Woven inert commands stream) {r : Reader α}
    (hinert : ∀ b, inert b → r.more [b] = false) (hknows : ∀ c ∈ commands, r.Knows c) :
    r.commands stream = commands
      ∧ ∀ t ∈ r.read [] stream, t ∈ commands ∨ ∃ b, t = [b] ∧ inert b := by
  unfold Reader.commands
  induction h with
  | done => exact ⟨rfl, fun t ht => absurd ht List.not_mem_nil⟩
  | text b hb _ ih =>
    obtain ⟨hcommands, heach⟩ := ih hknows
    rw [Reader.read, List.nil_append, hinert b hb]
    refine ⟨hcommands, fun t ht => ?_⟩
    rcases List.mem_cons.mp ht with rfl | ht
    · exact .inr ⟨b, rfl, hb⟩
    · exact heach t ht
  | command c _ ih =>
    obtain ⟨hc, hrest⟩ := List.forall_mem_cons.mp hknows
    obtain ⟨hcommands, heach⟩ := ih hrest
    rw [hc.read]
    refine ⟨?_, fun t ht => ?_⟩
    · have hkept : decide (1 < c.length) = true := decide_eq_true hc.long
      rw [List.filter_cons, hkept, hcommands]
      rfl
    · rcases List.mem_cons.mp ht with rfl | ht
      · exact .inl List.mem_cons_self
      · exact (heach t ht).imp_left (List.mem_cons_of_mem _)

end Woven
