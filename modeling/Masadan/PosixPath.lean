import Mathlib.Data.List.Infix

/-!
# POSIX paths

A place is the list of the names on the way to it from the root. A path leads from one place
to another: its segments are followed in turn, an empty one or a dot leads nowhere, two dots
lead back, and from the root no further. A path that begins with a separator starts at the
root, wherever one is.

`resolve` is the `path.resolve` of Node: it goes through texts, from the last to the first,
until it has an absolute path, and normalises what it has put together. It comes to following
the paths one after another (`resolve_eq`). A normal path is one that spells a place. As a
text one normal path with a separator behind it begins another one exactly when its place is on
the way to the other (`render_prefix_iff`), which the text without the separator does not tell.
-/

namespace Posix

variable {α : Type}

/-- What paths are written with. -/
structure Marks (α : Type) where
  sep : α
  dot : α

namespace Marks

/-- A segment that is a name. -/
structure Name (m : Marks α) (seg : List α) : Prop where
  ne_nil : seg ≠ []
  ne_dot : seg ≠ [m.dot]
  ne_dots : seg ≠ [m.dot, m.dot]
  no_sep : m.sep ∉ seg

/-- The path that spells a place. -/
def render (m : Marks α) (place : List (List α)) : List α := m.sep :: [m.sep].intercalate place

/-- **A normal path**: absolute, without empty segments, without dots, and without a separator at
its end, unless it is the root. -/
def Normal (m : Marks α) (s : List α) : Prop :=
  ∃ place, (∀ seg ∈ place, m.Name seg) ∧ s = m.render place

variable [DecidableEq α]

instance (m : Marks α) (seg : List α) : Decidable (m.Name seg) :=
  decidable_of_iff (seg ≠ [] ∧ seg ≠ [m.dot] ∧ seg ≠ [m.dot, m.dot] ∧ m.sep ∉ seg)
    ⟨fun ⟨h₁, h₂, h₃, h₄⟩ => ⟨h₁, h₂, h₃, h₄⟩,
      fun h => ⟨h.ne_nil, h.ne_dot, h.ne_dots, h.no_sep⟩⟩

/-- One segment further. -/
def step (m : Marks α) (place : List (List α)) (seg : List α) : List (List α) :=
  if seg = [] ∨ seg = [m.dot] then place
  else if seg = [m.dot, m.dot] then place.dropLast
  else place ++ [seg]

/-- The segments of a path, followed in turn. -/
def walk (m : Marks α) (place : List (List α)) (s : List α) : List (List α) :=
  (s.splitOn m.sep).foldl m.step place

/-- **Where a path leads**, from a place. -/
def follow (m : Marks α) (place : List (List α)) (s : List α) : List (List α) :=
  if s.head? = some m.sep then m.walk [] s else m.walk place s

/-- The names in a path. -/
def names (m : Marks α) (s : List α) : List (List α) := (s.splitOn m.sep).filter (· ≠ [])

/-- The loop of `resolve`: paths from the last one on, put in front of what there is, until one
of them is absolute. -/
def gather (m : Marks α) : List (List α) → List α → List α
  | [], resolved => resolved
  | s :: rest, resolved =>
    if s = [] then gather m rest resolved
    else if s.head? = some m.sep then s ++ m.sep :: resolved
    else gather m rest (s ++ m.sep :: resolved)

/-- **`path.resolve`**, in a working directory that is absolute. -/
def resolve (m : Marks α) (cwd : List α) (paths : List (List α)) : List α :=
  m.render (m.walk [] (m.gather (cwd :: paths).reverse []))

variable {m : Marks α} {place : List (List α)} {s t : List α}

/-! ## Following -/

/-- **What is put together is followed in turn.** -/
theorem walk_append (m : Marks α) (place : List (List α)) (s t : List α) :
    m.walk place (s ++ m.sep :: t) = m.walk (m.walk place s) t := by
  unfold walk
  rw [List.splitOn_append_cons_self, List.foldl_append]

theorem walk_nil : m.walk place [] = place := by
  unfold walk
  rw [List.splitOn_nil, List.foldl_cons, List.foldl_nil]
  exact if_pos (.inl rfl)

theorem follow_nil : m.follow place [] = place := by
  unfold follow
  rw [if_neg (by simp), walk_nil]

/-- A name is followed to what it names. -/
theorem step_name {seg : List α} (h : m.Name seg) : m.step place seg = place ++ [seg] := by
  unfold step
  rw [if_neg (fun h' => h'.elim h.ne_nil h.ne_dot), if_neg h.ne_dots]

theorem foldl_step_names {segs : List (List α)} (h : ∀ seg ∈ segs, m.Name seg) :
    segs.foldl m.step place = place ++ segs := by
  induction segs generalizing place with
  | nil => exact (List.append_nil place).symm
  | cons seg segs ih =>
    rw [List.foldl_cons, step_name (h seg List.mem_cons_self),
      ih (fun seg' h' => h seg' (List.mem_cons_of_mem _ h')), List.append_assoc,
      List.singleton_append]

/-- A segment is free of separators. -/
theorem no_sep_of_split (m : Marks α) (s : List α) : ∀ seg ∈ s.splitOn m.sep, m.sep ∉ seg := by
  induction s with
  | nil =>
    intro seg hseg
    rw [List.splitOn_nil, List.mem_singleton] at hseg
    rw [hseg]
    exact List.not_mem_nil
  | cons c s ih =>
    rw [List.splitOn_cons_eq_if_modifyHead]
    split
    · intro seg hseg
      rcases List.mem_cons.mp hseg with rfl | hseg
      · exact List.not_mem_nil
      · exact ih seg hseg
    · next hc =>
      cases hs : s.splitOn m.sep with
      | nil => exact fun seg hseg => absurd hseg List.not_mem_nil
      | cons first rest =>
        rw [hs] at ih
        intro seg hseg
        rcases List.mem_cons.mp hseg with rfl | hseg
        · intro hmem
          rcases List.mem_cons.mp hmem with hsep | hmem
          · exact hc (beq_iff_eq.mpr hsep.symm)
          · exact ih first List.mem_cons_self hmem
        · exact ih seg (List.mem_cons_of_mem _ hseg)

theorem step_names {seg : List α} (hseg : m.sep ∉ seg) (h : ∀ name ∈ place, m.Name name) :
    ∀ name ∈ m.step place seg, m.Name name := by
  unfold step
  split
  · exact h
  · next hskip =>
    split
    · exact fun name hname => h name (List.mem_of_mem_dropLast hname)
    · next hdots =>
      intro name hname
      rcases List.mem_append.mp hname with hname | hname
      · exact h name hname
      · rw [List.mem_singleton.mp hname]
        exact ⟨fun h' => hskip (.inl h'), fun h' => hskip (.inr h'), hdots, hseg⟩

/-- **A place stays one**, whatever path is followed from it. -/
theorem walk_names (s : List α) (h : ∀ name ∈ place, m.Name name) :
    ∀ name ∈ m.walk place s, m.Name name := by
  unfold walk
  have hsep := m.no_sep_of_split s
  generalize s.splitOn m.sep = segs at hsep
  induction segs generalizing place with
  | nil => exact h
  | cons seg segs ih =>
    exact ih (step_names (hsep seg List.mem_cons_self) h)
      (fun seg' h' => hsep seg' (List.mem_cons_of_mem _ h'))

theorem follow_names (s : List α) (h : ∀ name ∈ place, m.Name name) :
    ∀ name ∈ m.follow place s, m.Name name := by
  unfold follow
  split
  · exact walk_names s (fun name hname => absurd hname List.not_mem_nil)
  · exact walk_names s h

/-! ## Normal paths -/

/-- **A normal path leads to the place it spells.** -/
theorem walk_render (h : ∀ name ∈ place, m.Name name) : m.walk [] (m.render place) = place := by
  show m.walk [] ([] ++ m.sep :: [m.sep].intercalate place) = place
  rw [walk_append, walk_nil]
  by_cases hnil : place = []
  · rw [hnil]
    exact walk_nil
  · unfold walk
    rw [List.splitOn_intercalate _ (fun name hname => (h name hname).no_sep) hnil,
      foldl_step_names h, List.nil_append]

theorem render_inj {root target : List (List α)} (hroot : ∀ name ∈ root, m.Name name)
    (htarget : ∀ name ∈ target, m.Name name) (h : m.render root = m.render target) :
    root = target := by
  rw [← walk_render hroot, h, walk_render htarget]

/-- The segments of a normal path: an empty one, and the names. -/
theorem split_render (h : ∀ name ∈ place, m.Name name) (hne : place ≠ []) :
    (m.render place).splitOn m.sep = [] :: place := by
  show ([] ++ m.sep :: [m.sep].intercalate place).splitOn m.sep = _
  rw [List.splitOn_append_cons_self, List.splitOn_nil,
    List.splitOn_intercalate _ (fun name hname => (h name hname).no_sep) hne]
  rfl

theorem names_render (h : ∀ name ∈ place, m.Name name) : m.names (m.render place) = place := by
  unfold names
  by_cases hnil : place = []
  · rw [hnil]
    show (([] ++ m.sep :: []).splitOn m.sep).filter _ = []
    rw [List.splitOn_append_cons_self, List.splitOn_nil]
    rfl
  · rw [split_render h hnil, List.filter_cons_of_neg (by simp), List.filter_eq_self]
    exact fun name hname => decide_eq_true (h name hname).ne_nil

omit [DecidableEq α] in
/-- A place further on is spelled further on. -/
theorem render_append {rest : List (List α)} {name : List α} (hne : place ≠ []) :
    m.render (place ++ name :: rest)
      = m.render place ++ m.sep :: [m.sep].intercalate (name :: rest) := by
  unfold render
  rw [List.cons_append]
  congr 1
  induction place with
  | nil => exact absurd rfl hne
  | cons first place ih =>
    cases place with
    | nil => rw [List.singleton_append, List.intercalate_cons_cons, List.intercalate_singleton,
        List.append_assoc, List.singleton_append]
    | cons second place =>
      rw [List.cons_append, List.cons_append, List.intercalate_cons_cons,
        ← List.cons_append, ih (List.cons_ne_nil _ _), List.intercalate_cons_cons,
        List.append_assoc, List.append_assoc, List.append_assoc]

/-- **The text with a separator behind it begins another normal path exactly when the place is
on the way to the other.** -/
theorem render_prefix_iff {root target : List (List α)} (hroot : ∀ name ∈ root, m.Name name)
    (htarget : ∀ name ∈ target, m.Name name) (hne : root ≠ []) :
    m.render root ++ [m.sep] <+: m.render target ↔ root <+: target ∧ root ≠ target := by
  constructor
  · rintro ⟨rest, hrest⟩
    rw [List.append_assoc, List.singleton_append] at hrest
    have hsplit := congrArg (List.splitOn m.sep) hrest
    rw [List.splitOn_append_cons_self, split_render hroot hne] at hsplit
    have htne : target ≠ [] := by
      rintro rfl
      have hlen := congrArg List.length hrest
      simp [render] at hlen
    rw [split_render htarget htne, List.cons_append] at hsplit
    have htail := (List.cons.inj hsplit).2
    refine ⟨⟨_, htail⟩, fun heq => ?_⟩
    rw [heq] at htail
    exact List.splitOn_ne_nil _ _ (List.append_cancel_left (htail.trans (List.append_nil _).symm))
  · rintro ⟨⟨rest, rfl⟩, hlt⟩
    cases rest with
    | nil => exact absurd (List.append_nil root).symm hlt
    | cons name rest =>
      rw [render_append hne]
      exact ⟨_, by rw [List.append_assoc, List.singleton_append]⟩

/-! ## Resolving -/

/-- The places the paths lead to, from the last one on. -/
theorem walk_gather (m : Marks α) (paths : List (List α)) (resolved : List α) :
    m.walk [] (m.gather paths resolved)
      = m.walk (paths.foldr (fun s place => m.follow place s) []) resolved := by
  induction paths generalizing resolved with
  | nil => rfl
  | cons s paths ih =>
    unfold gather
    rw [List.foldr_cons]
    split
    · next hs => rw [hs, follow_nil, ih]
    · unfold follow
      split
      · exact walk_append m [] s resolved
      · rw [ih, walk_append]
        rfl

/-- **Resolving is following one path after another.** -/
theorem resolve_eq (m : Marks α) (cwd : List α) (paths : List (List α)) :
    m.resolve cwd paths = m.render (paths.foldl m.follow (m.walk [] cwd)) := by
  unfold resolve
  rw [walk_gather, walk_nil, List.foldr_reverse, List.foldl_cons]
  congr 2
  unfold follow
  exact ite_self _

/-- A normal path is resolved to itself. -/
theorem follow_render (from' : List (List α)) (h : ∀ name ∈ place, m.Name name) :
    m.follow from' (m.render place) = place := by
  exact (if_pos rfl).trans (walk_render h)

end Marks

end Posix
