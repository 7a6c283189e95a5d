import Mathlib.Data.List.Basic

/-!
# UTF-8

A text is a list of UTF-16 code units, as JavaScript has it, and `utf8` are its bytes. A
surrogate that has no partner is written as the replacement character, so two texts may have
the same bytes; but the bytes of a text below 128 are those of no other (`utf8_injective`).
-/

namespace Utf8

/-- The first half of a pair. -/
def isHigh (u : UInt16) : Bool := 0xd800 ≤ u && u ≤ 0xdbff

/-- The second half. -/
def isLow (u : UInt16) : Bool := 0xdc00 ≤ u && u ≤ 0xdfff

/-- What a code unit without a partner stands for. -/
def lone (u : UInt16) : ℕ := if isHigh u || isLow u then 0xfffd else u.toNat

/-- What a pair stands for. -/
def pair (hi lo : UInt16) : ℕ := 0x10000 + (hi.toNat - 0xd800) * 0x400 + (lo.toNat - 0xdc00)

/-- The characters of a text. -/
def characters : List UInt16 → List ℕ
  | [] => []
  | [u] => [lone u]
  | u :: u' :: rest =>
    if isHigh u && isLow u' then pair u u' :: characters rest else lone u :: characters (u' :: rest)

/-- The bytes of a character. -/
def encode (c : ℕ) : List UInt8 :=
  if c < 0x80 then [c.toUInt8]
  else if c < 0x800 then [(0xc0 + c / 0x40).toUInt8, (0x80 + c % 0x40).toUInt8]
  else if c < 0x10000 then
    [(0xe0 + c / 0x1000).toUInt8, (0x80 + c / 0x40 % 0x40).toUInt8, (0x80 + c % 0x40).toUInt8]
  else
    [(0xf0 + c / 0x40000).toUInt8, (0x80 + c / 0x1000 % 0x40).toUInt8,
      (0x80 + c / 0x40 % 0x40).toUInt8, (0x80 + c % 0x40).toUInt8]

/-- **The bytes of a text.** -/
def utf8 (s : List UInt16) : List UInt8 := (characters s).flatMap encode

/-! ## Texts below 128 -/

/-- Every code unit is below 128. -/
def Ascii (s : List UInt16) : Prop := ∀ u ∈ s, u < 128

theorem lone_small {u : UInt16} (h : lone u < 0x80) : u < 128 ∧ lone u = u.toNat := by
  unfold lone at h ⊢
  split at h
  · omega
  · next hlone =>
    rw [if_neg hlone]
    exact ⟨UInt16.lt_iff_toNat_lt.mpr h, rfl⟩

theorem lone_ascii {u : UInt16} (h : u < 128) : lone u = u.toNat := by
  have hu : u.toNat < 128 := UInt16.lt_iff_toNat_lt.mp h
  have hhigh : isHigh u = false := by
    unfold isHigh
    rw [Bool.and_eq_false_iff]
    exact .inl (decide_eq_false (fun hle => by
      have := UInt16.le_iff_toNat_le.mp hle
      have hd : (0xd800 : UInt16).toNat = 0xd800 := rfl
      omega))
  have hlow : isLow u = false := by
    unfold isLow
    rw [Bool.and_eq_false_iff]
    exact .inl (decide_eq_false (fun hle => by
      have := UInt16.le_iff_toNat_le.mp hle
      have hd : (0xdc00 : UInt16).toNat = 0xdc00 := rfl
      omega))
  unfold lone
  rw [hhigh, hlow]
  rfl

theorem encode_small {c : ℕ} (h : c < 0x80) : encode c = [c.toUInt8] := if_pos h

/-- A character from 128 on begins with a byte from 128 on. -/
theorem encode_large {c : ℕ} (h : 0x80 ≤ c) (hc : c < 0x110000) :
    ∃ b bs, encode c = b :: bs ∧ 128 ≤ b.toNat := by
  unfold encode
  rw [if_neg (by omega)]
  split
  · refine ⟨_, _, rfl, ?_⟩
    rw [Nat.toUInt8_eq, UInt8.toNat_ofNat']
    omega
  · split
    · refine ⟨_, _, rfl, ?_⟩
      rw [Nat.toUInt8_eq, UInt8.toNat_ofNat']
      omega
    · refine ⟨_, _, rfl, ?_⟩
      rw [Nat.toUInt8_eq, UInt8.toNat_ofNat']
      omega

/-- The byte of a code unit below 128. -/
def byte (u : UInt16) : UInt8 := u.toNat.toUInt8

theorem byte_toNat {u : UInt16} (h : u < 128) : (byte u).toNat = u.toNat := by
  have hu : u.toNat < 128 := UInt16.lt_iff_toNat_lt.mp h
  unfold byte
  rw [Nat.toUInt8_eq, UInt8.toNat_ofNat']
  omega

theorem characters_ascii {s : List UInt16} (h : Ascii s) : characters s = s.map UInt16.toNat := by
  induction s with
  | nil => rfl
  | cons u rest ih =>
    have hu : u < 128 := h u List.mem_cons_self
    have hrest := ih (fun v hv => h v (List.mem_cons_of_mem _ hv))
    cases rest with
    | nil =>
      show [lone u] = _
      rw [lone_ascii hu]
      rfl
    | cons u' rest =>
      have hhigh : isHigh u = false := by
        have hlone := lone_ascii hu
        unfold lone at hlone
        by_contra hnot
        rw [Bool.not_eq_false] at hnot
        rw [hnot, Bool.true_or, if_pos rfl] at hlone
        have := UInt16.lt_iff_toNat_lt.mp hu
        rw [← hlone] at this
        exact absurd this (by decide)
      unfold characters
      rw [hhigh, Bool.false_and, if_neg Bool.false_ne_true, hrest, lone_ascii hu]
      rfl

/-- **The bytes of a text below 128** are its code units. -/
theorem utf8_ascii {s : List UInt16} (h : Ascii s) : utf8 s = s.map byte := by
  unfold utf8
  rw [characters_ascii h, List.flatMap_map]
  induction s with
  | nil => rfl
  | cons u rest ih =>
    have hu : u.toNat < 128 := UInt16.lt_iff_toNat_lt.mp (h u List.mem_cons_self)
    rw [List.flatMap_cons, ih (fun v hv => h v (List.mem_cons_of_mem _ hv)), encode_small hu]
    rfl

/-- The first character, where the bytes are those of a text below 128. -/
theorem first_ascii {c : ℕ} {bs : List UInt8} {t : List UInt16} (ht : Ascii t)
    (hc : c < 0x110000) (h : encode c ++ bs = t.map byte) :
    ∃ u rest, t = u :: rest ∧ c = u.toNat ∧ bs = rest.map byte := by
  by_cases hsmall : c < 0x80
  · rw [encode_small hsmall] at h
    obtain ⟨u, rest, rfl, hu, hrest⟩ := List.map_eq_cons_iff.mp h.symm
    refine ⟨u, rest, rfl, ?_, hrest.symm⟩
    have hbyte := congrArg UInt8.toNat hu
    rw [byte_toNat (ht u List.mem_cons_self), Nat.toUInt8_eq, UInt8.toNat_ofNat'] at hbyte
    omega
  · obtain ⟨b, bs', hb, hlarge⟩ := encode_large (Nat.not_lt.mp hsmall) hc
    rw [hb] at h
    obtain ⟨u, rest, rfl, hu, _⟩ := List.map_eq_cons_iff.mp h.symm
    have hbyte := byte_toNat (ht u List.mem_cons_self)
    have hsmall' : u.toNat < 128 := UInt16.lt_iff_toNat_lt.mp (ht u List.mem_cons_self)
    rw [hu] at hbyte
    omega

theorem lone_lt (u : UInt16) : lone u < 0x110000 := by
  have hu : u.toNat < 65536 := UInt16.toNat_lt u
  unfold lone
  split
  · decide
  · omega

theorem pair_lt {u u' : UInt16} (h : (isHigh u && isLow u') = true) :
    0x80 ≤ pair u u' ∧ pair u u' < 0x110000 := by
  unfold isHigh isLow at h
  simp only [Bool.and_eq_true, decide_eq_true_eq, UInt16.le_iff_toNat_le] at h
  have hhigh : (0xdbff : UInt16).toNat = 0xdbff := rfl
  have hlow : (0xdfff : UInt16).toNat = 0xdfff := rfl
  unfold pair
  omega

/-- **The bytes of a text below 128 are those of no other text.** -/
theorem utf8_injective {s t : List UInt16} (ht : Ascii t) (h : utf8 s = utf8 t) : s = t := by
  rw [utf8_ascii ht] at h
  unfold utf8 at h
  induction s using characters.induct generalizing t with
  | case1 => exact (List.map_eq_nil_iff.mp h.symm).symm
  | case2 u =>
    obtain ⟨v, rest, rfl, hv, hrest⟩ := first_ascii ht (lone_lt u) h
    have hlone := lone_small (u := u) (by
      rw [hv]
      exact UInt16.lt_iff_toNat_lt.mp (ht v List.mem_cons_self))
    rw [UInt16.toNat_inj.mp (hlone.2.symm.trans hv), List.map_eq_nil_iff.mp hrest.symm]
  | case3 u u' rest hpair _ =>
    unfold characters at h
    rw [if_pos hpair] at h
    obtain ⟨v, _, rfl, hv, _⟩ := first_ascii ht (pair_lt hpair).2 h
    have hsmall : v.toNat < 128 := UInt16.lt_iff_toNat_lt.mp (ht v List.mem_cons_self)
    have hlarge := (pair_lt hpair).1
    omega
  | case4 u u' rest hpair ih =>
    unfold characters at h
    rw [if_neg hpair] at h
    obtain ⟨v, rest', rfl, hv, hrest⟩ := first_ascii ht (lone_lt u) h
    have hlone := lone_small (u := u) (by
      rw [hv]
      exact UInt16.lt_iff_toNat_lt.mp (ht v List.mem_cons_self))
    rw [UInt16.toNat_inj.mp (hlone.2.symm.trans hv),
      ih (fun w hw => ht w (List.mem_cons_of_mem _ hw)) hrest]

end Utf8
