import Masadan.JsNumber

/-!
# Pages

`src/lib/pagination.ts`: how many rows a page of the order log has, and where the next page
begins.

A page size is cut down to an integer after it has been checked to be positive. So one
between zero and one passes the check and becomes none, and a page of none has no last row
to point the cursor at (`page_limit_fails`). Every other page size is fine (`page_limit`).
-/

namespace Masadan

def ORDER_PAGE_SIZE : ℤ := 50

def ORDER_MAX_PAGE_SIZE : ℤ := 200

/-- **`pageLimit`.** -/
def pageLimit (raw : Option Text) : ℤ :=
  match JsNumber.ofParam raw with
  | .finite n => if n ≤ 0 then ORDER_PAGE_SIZE else min n.floor ORDER_MAX_PAGE_SIZE
  | _ => ORDER_PAGE_SIZE

/-- What a function throws that reads a property of what is not there. -/
inductive TypeError where
  | undefined
  deriving DecidableEq

/-- A page of rows, and the id after which the next begins. -/
structure Page (α ι : Type) where
  items : List α
  nextCursor : Option ι

/-- `rows.slice(0, n)`: a negative end counts from the end of the rows. -/
def sliceRows {α : Type} (rows : List α) (n : ℤ) : List α :=
  rows.take (if n < 0 then rows.length + n else n).toNat

/-- **`splitPage`**, of rows that have an id. -/
def splitPage {α ι : Type} (id : α → ι) (rows : List α) (limit : ℤ) :
    Except TypeError (Page α ι) :=
  if rows.length ≤ limit then .ok ⟨rows, none⟩
  else
    let items := sliceRows rows limit
    match items.getLast? with
    | none => .error .undefined
    | some last => .ok ⟨items, some (id last)⟩

section

variable {α ι : Type} {id : α → ι} {rows : List α} {limit : ℤ}

/-- **A page of at least one row is split**: into its first rows, with the last of them as
the cursor if there are more. -/
theorem splitPage_spec (id : α → ι) (rows : List α) (hlimit : 1 ≤ limit) : ∃ cursor,
    splitPage id rows limit = .ok ⟨rows.take limit.toNat, cursor⟩
      ∧ (cursor = none ∧ rows.length ≤ limit.toNat
        ∨ limit.toNat < rows.length
          ∧ ∃ r ∈ (rows.take limit.toNat).getLast?, cursor = some (id r)) := by
  unfold splitPage
  by_cases hfew : (rows.length : ℤ) ≤ limit
  · have hall : rows.length ≤ limit.toNat := by omega
    rw [if_pos hfew, List.take_of_length_le hall]
    exact ⟨none, rfl, .inl ⟨rfl, hall⟩⟩
  · have hslice : sliceRows rows limit = rows.take limit.toNat := by
      unfold sliceRows
      rw [if_neg (by omega)]
    have hmore : limit.toNat < rows.length := by omega
    have hsome : rows.take limit.toNat ≠ [] := by
      rw [← List.length_pos_iff, List.length_take]
      omega
    rw [if_neg hfew]
    dsimp only
    rw [hslice, List.getLast?_eq_some_getLast hsome]
    exact ⟨_, rfl, .inr ⟨hmore, _, rfl, rfl⟩⟩

/-- A page of none cannot be split if there are rows. -/
theorem splitPage_zero (hrows : rows ≠ []) : splitPage id rows 0 = .error .undefined := by
  have hlength := List.length_pos_iff.mpr hrows
  unfold splitPage
  rw [if_neg (by omega)]
  rfl

end

/-! ## The law -/

/-- **A page size that never fails a read**: it is in its range, and every list of rows is
split with it, the cursor being none or the id of one of them. -/
structure PageSound (limit : ℤ) : Prop where
  low : 1 ≤ limit
  high : limit ≤ ORDER_MAX_PAGE_SIZE
  splits : ∀ (α ι : Type) (id : α → ι) (rows : List α), ∃ page,
    splitPage id rows limit = .ok page ∧ ∀ cursor, page.nextCursor = some cursor →
      ∃ r ∈ rows, id r = cursor

theorem PageSound.of_range {limit : ℤ} (hlow : 1 ≤ limit) (hhigh : limit ≤ ORDER_MAX_PAGE_SIZE) :
    PageSound limit := by
  refine ⟨hlow, hhigh, fun α ι id rows => ?_⟩
  obtain ⟨cursor, hsplit, hcursor⟩ := splitPage_spec id rows hlow
  refine ⟨_, hsplit, fun c hc => ?_⟩
  rcases hcursor with ⟨hnone, _⟩ | ⟨_, r, hr, hsome⟩
  · cases hnone.symm.trans hc
  · cases hsome.symm.trans hc
    exact ⟨r, List.mem_of_mem_take (List.mem_of_getLast? hr), rfl⟩

/-- **What the page size comes to**: nothing exactly if the number lies between zero and
one. -/
theorem pageLimit_spec (raw : Option Text) :
    pageLimit raw ≤ ORDER_MAX_PAGE_SIZE ∧ 0 ≤ pageLimit raw
      ∧ (pageLimit raw = 0 ↔ ∃ n, JsNumber.ofParam raw = .finite n ∧ 0 < n ∧ n < 1) := by
  have hdefault : ORDER_PAGE_SIZE ≤ ORDER_MAX_PAGE_SIZE ∧ 0 ≤ ORDER_PAGE_SIZE
      ∧ ORDER_PAGE_SIZE ≠ 0 := by decide
  unfold pageLimit
  cases hraw : JsNumber.ofParam raw with
  | nan =>
    refine ⟨hdefault.1, hdefault.2.1, iff_of_false hdefault.2.2 ?_⟩
    rintro ⟨n, hn, _⟩
    cases hn
  | infinity negative =>
    refine ⟨hdefault.1, hdefault.2.1, iff_of_false hdefault.2.2 ?_⟩
    rintro ⟨n, hn, _⟩
    cases hn
  | finite n =>
    dsimp only
    by_cases hn : n ≤ 0
    · rw [if_pos hn]
      refine ⟨hdefault.1, hdefault.2.1, iff_of_false hdefault.2.2 ?_⟩
      rintro ⟨m, hm, hpos, _⟩
      cases hm
      exact absurd hpos (not_lt.mpr hn)
    · rw [if_neg hn]
      have hfloor : 0 ≤ n.floor := Rat.le_floor_iff.mpr (not_le.mp hn).le
      have hone : 1 ≤ n.floor ↔ 1 ≤ n := Rat.le_floor_iff
      refine ⟨min_le_right _ _, le_min hfloor (by decide), ?_⟩
      constructor
      · intro hzero
        refine ⟨n, rfl, not_le.mp hn, not_le.mp (fun hle => ?_)⟩
        have := hone.mpr hle
        unfold ORDER_MAX_PAGE_SIZE at hzero
        omega
      · rintro ⟨m, hm, _, hless⟩
        cases hm
        have hnot : ¬ 1 ≤ n.floor := fun h => absurd (hone.mp h) (not_le.mpr hless)
        unfold ORDER_MAX_PAGE_SIZE
        omega

/-- **A page size fails no read** exactly if it is not between zero and one. -/
theorem page_limit (raw : Option Text) : PageSound (pageLimit raw) ↔
    ¬ ∃ n, JsNumber.ofParam raw = .finite n ∧ 0 < n ∧ n < 1 := by
  obtain ⟨hhigh, hlow, hzero⟩ := pageLimit_spec raw
  rw [← hzero]
  constructor
  · intro h hnone
    have := h.low
    omega
  · intro h
    exact .of_range (by omega) hhigh

/-- **Half a row is a page of none**, which one row does not split. -/
theorem page_limit_fails : ¬ ∀ raw : Option Text, PageSound (pageLimit raw) := by
  intro h
  have hhalf : pageLimit (some (text "0.5")) = 0 := by decide +kernel
  obtain ⟨page, hpage, _⟩ := (h (some (text "0.5"))).splits ℕ ℕ id [7]
  rw [hhalf, splitPage_zero (by decide)] at hpage
  cases hpage

end Masadan
