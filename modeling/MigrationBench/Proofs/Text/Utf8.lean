import MigrationBench.Text.Utf8
import Mathlib

/-!
# Reading UTF-8

Which texts a byte sequence stands for, said without the machine that reads it: a piece of the bytes is
either the form of a character, or it is broken and stands for a replacement character.

* `Utf8.Broken` — the maximal parts of a sequence that begin no character.
* `Utf8.Reads` — the pieces of a byte sequence and the characters that they stand for.
* `Utf8.Begun` — bytes that have begun a character, and what the machine expects after them.
* `Utf8.units_cases` — the machine cuts off one piece after another.
* `Utf8.decodeLossy_eq_iff` — the text of a sequence with replacement characters is the one that it reads as.
* `Utf8.decodeLossy_eq_iff_encode` — without replacement characters it is the text that has these bytes.
-/

namespace MigrationBench.Utf8

open String (utf8EncodeChar)

/-! ### The pieces of a byte sequence -/

/-- A part of a byte sequence, with some bytes behind it, at which no character begins: the longest one
that begins the form of a character, or else a single byte. -/
structure Broken (part rest : List UInt8) : Prop where
  ne_nil : part ≠ []
  no_char : ∀ c, ¬ utf8EncodeChar c <+: part ++ rest
  begun : part.length = 1 ∨ ∃ c, part <+: utf8EncodeChar c
  longest : ∀ more c, more <+: part ++ rest → more <+: utf8EncodeChar c → more.length ≤ part.length

/-- The characters that the pieces of a byte sequence stand for. -/
inductive Reads : List UInt8 → List Char → Prop where
  | nil : Reads [] []
  | char {rest : List UInt8} {cs : List Char} (c : Char) :
      Reads rest cs → Reads (utf8EncodeChar c ++ rest) (c :: cs)
  | broken {part rest : List UInt8} {cs : List Char} :
      Broken part rest → Reads rest cs → Reads (part ++ rest) (replacement :: cs)

/-- A byte sequence is the form of a text. -/
def IsText (bytes : List UInt8) : Prop :=
  ∃ s, bytes = encode s

/-! ### Numbers and bytes -/

/-- The last bytes of the form of a character with a number: six bits in each. -/
def trail : Nat → Nat → List UInt8
  | 0, _ => []
  | n + 1, v => UInt8.ofNat (0x80 + v / 64 ^ n % 64) :: trail n v

/-- The byte for the six bits of a number that come next. -/
def Pending.asked (p : Pending) (v : Nat) : Nat := 0x80 + v / 64 ^ (p.owed - 1) % 64

/-- A number has the bits read so far, and the byte for the next ones lies in the bounds. -/
structure Pending.Fits (p : Pending) (v : Nat) : Prop where
  bits_eq : v / 64 ^ p.owed = p.bits
  low_le : p.low ≤ p.asked v
  le_high : p.asked v ≤ p.high

/-- Every number that fits is that of a character, and there is one. -/
structure Pending.IsSound (p : Pending) : Prop where
  owed_pos : 0 < p.owed
  least : 0x80 ≤ p.low
  low_le_high : p.low ≤ p.high
  greatest : p.high ≤ 0xbf
  valid : ∀ v, p.Fits v → v.isValidChar

theorem toNat_ofNat {v : Nat} (h : v.isValidChar) : (Char.ofNat v).toNat = v := by
  rw [Char.ofNat, dif_pos h]
  rfl

/-- What is pending after one more byte. -/
def Pending.next (p : Pending) (b : UInt8) : Pending :=
  ⟨p.owed - 1, 0x80, 0xbf, p.bits * 64 + (b.toNat - 0x80)⟩

/-- What a first byte begins, by the number of bytes that it asks for. -/
inductive Opens (b : UInt8) : Pending → Prop where
  | two {n : Nat} : 2 ≤ n → n ≤ 31 → b.toNat = 0xc0 + n → Opens b ⟨1, 0x80, 0xbf, n⟩
  | three {n : Nat} : n ≤ 15 → b.toNat = 0xe0 + n →
      Opens b ⟨2, if n = 0 then 0xa0 else 0x80, if n = 13 then 0x9f else 0xbf, n⟩
  | four {n : Nat} : n ≤ 4 → b.toNat = 0xf0 + n →
      Opens b ⟨3, if n = 0 then 0x90 else 0x80, if n = 4 then 0x8f else 0xbf, n⟩

theorem opening_eq_longer_iff {b : UInt8} {p : Pending} : opening b = .longer p ↔ Opens b p := by
  constructor
  · intro h
    simp only [opening] at h
    split at h
    · cases h
    split at h
    · cases h
    split at h
    · cases h
      exact .two (by omega) (by omega) (by omega)
    split at h
    · cases h
      exact .three (n := 0) (by omega) (by omega)
    split at h
    · rename_i hed
      cases h
      rw [hed]
      exact .three (n := 13) (by omega) (by omega)
    split at h
    · cases h
      have hopens : Opens b _ := .three (n := b.toNat - 0xe0) (by omega) (by omega)
      rwa [if_neg (by omega), if_neg (by omega)] at hopens
    split at h
    · cases h
      exact .four (n := 0) (by omega) (by omega)
    split at h
    · cases h
      have hopens : Opens b _ := .four (n := b.toNat - 0xf0) (by omega) (by omega)
      rwa [if_neg (by omega), if_neg (by omega)] at hopens
    split at h
    · rename_i hf4
      cases h
      rw [hf4]
      exact .four (n := 4) (by omega) (by omega)
    · cases h
  · intro h
    cases h with
    | two hlow hhigh hb =>
      rw [opening, if_neg (by omega), if_neg (by omega), if_pos (by omega), hb, Nat.add_sub_cancel_left]
    | @three n hhigh hb =>
      rw [opening, if_neg (by omega), if_neg (by omega), if_neg (by omega)]
      by_cases hzero : n = 0
      · rw [if_pos (by omega), if_pos hzero, if_neg (by omega), hzero]
      by_cases hed : n = 13
      · rw [if_neg (by omega), if_pos (by omega), if_neg hzero, if_pos hed, hb, Nat.add_sub_cancel_left]
      · rw [if_neg (by omega), if_neg (by omega), if_pos (by omega), if_neg hzero, if_neg hed, hb,
          Nat.add_sub_cancel_left]
    | @four n hhigh hb =>
      rw [opening, if_neg (by omega), if_neg (by omega), if_neg (by omega), if_neg (by omega),
        if_neg (by omega), if_neg (by omega)]
      by_cases hzero : n = 0
      · rw [if_pos (by omega), if_pos hzero, if_neg (by omega), hzero]
      by_cases hf4 : n = 4
      · rw [if_neg (by omega), if_neg (by omega), if_pos (by omega), if_neg hzero, if_pos hf4, hb,
          Nat.add_sub_cancel_left]
      · rw [if_neg (by omega), if_pos (by omega), if_neg hzero, if_neg hf4, hb,
          Nat.add_sub_cancel_left]

theorem Opens.isSound {b : UInt8} {p : Pending} (h : Opens b p) : p.IsSound := by
  cases h with
  | two hlow hhigh hb =>
    refine ⟨Nat.one_pos, Nat.le_refl _, Nat.le_of_ble_eq_true rfl, Nat.le_refl _, fun v hv => ?_⟩
    have hbits := hv.bits_eq
    simp only [Nat.isValidChar] at hbits ⊢
    omega
  | @three n hhigh hb =>
    refine ⟨Nat.two_pos, ?_, ?_, ?_, fun v hv => ?_⟩
    · show 0x80 ≤ if n = 0 then 0xa0 else 0x80
      split <;> omega
    · show (if n = 0 then 0xa0 else 0x80) ≤ if n = 13 then 0x9f else 0xbf
      split <;> split <;> omega
    · show (if n = 13 then 0x9f else 0xbf) ≤ 0xbf
      split <;> omega
    · obtain ⟨hbits, -, hnext⟩ := hv
      simp only [Pending.asked, Nat.isValidChar] at hbits hnext ⊢
      split at hnext <;> omega
  | @four n hhigh hb =>
    refine ⟨Nat.succ_pos 2, ?_, ?_, ?_, fun v hv => ?_⟩
    · show 0x80 ≤ if n = 0 then 0x90 else 0x80
      split <;> omega
    · show (if n = 0 then 0x90 else 0x80) ≤ if n = 4 then 0x8f else 0xbf
      split <;> split <;> omega
    · show (if n = 4 then 0x8f else 0xbf) ≤ 0xbf
      split <;> omega
    · obtain ⟨hbits, hlow, hnext⟩ := hv
      simp only [Pending.asked, Nat.isValidChar] at hbits hlow hnext ⊢
      split at hlow <;> split at hnext <;> omega

/-- The form of a character: its high bits behind a mark, and six bits in each further byte. -/
theorem form_eq (c : Char) : utf8EncodeChar c =
    if c.toNat ≤ 0x7f then [UInt8.ofNat c.toNat]
    else if c.toNat ≤ 0x7ff then UInt8.ofNat (0xc0 + c.toNat / 64 ^ 1) :: trail 1 c.toNat
    else if c.toNat ≤ 0xffff then UInt8.ofNat (0xe0 + c.toNat / 64 ^ 2) :: trail 2 c.toNat
    else UInt8.ofNat (0xf0 + c.toNat / 64 ^ 3) :: trail 3 c.toNat := by
  have hvalid : c.toNat < 0x110000 := by
    rcases c.valid with h | h
    · exact Nat.lt_trans h (by decide)
    · exact h.2
  simp only [utf8EncodeChar, show c.val.toNat = c.toNat from rfl]
  split
  · rfl
  split
  · simp only [trail, List.cons.injEq, and_true]
    refine ⟨congrArg UInt8.ofNat ?_, congrArg UInt8.ofNat ?_⟩ <;> omega
  split
  · simp only [trail, List.cons.injEq, and_true]
    refine ⟨congrArg UInt8.ofNat ?_, congrArg UInt8.ofNat ?_, congrArg UInt8.ofNat ?_⟩ <;> omega
  · simp only [trail, List.cons.injEq, and_true]
    refine ⟨congrArg UInt8.ofNat ?_, congrArg UInt8.ofNat ?_, congrArg UInt8.ofNat ?_,
      congrArg UInt8.ofNat ?_⟩ <;> omega

/-- The form of a character that fits what a first byte begins. -/
theorem Opens.form_eq {b : UInt8} {p : Pending} (h : Opens b p) {c : Char} (hc : p.Fits c.toNat) :
    utf8EncodeChar c = b :: trail p.owed c.toNat := by
  obtain ⟨hbits, hlow, -⟩ := hc
  rw [Utf8.form_eq]
  cases h with
  | two hleast hmost hb =>
    simp only at hbits
    rw [if_neg (by omega), if_pos (by omega), hbits, ← hb, UInt8.ofNat_toNat]
  | @three n hmost hb =>
    simp only [Pending.asked] at hbits hlow
    have hleast : 0x7ff < c.toNat := by split at hlow <;> omega
    rw [if_neg (by omega), if_neg (by omega), if_pos (by omega), hbits, ← hb, UInt8.ofNat_toNat]
  | @four n hmost hb =>
    simp only [Pending.asked] at hbits hlow
    have hleast : 0xffff < c.toNat := by split at hlow <;> omega
    rw [if_neg (by omega), if_neg (by omega), if_neg (by omega), hbits, ← hb, UInt8.ofNat_toNat]

/-- A byte that is a whole character is its form. -/
theorem form_of_whole {b : UInt8} {c : Char} (h : opening b = .whole c) : utf8EncodeChar c = [b] := by
  by_cases hsmall : b.toNat ≤ 0x7f
  · rw [opening, if_pos hsmall] at h
    cases h
    have hnumber : (Char.ofNat b.toNat).toNat = b.toNat := toNat_ofNat (.inl (by omega))
    rw [Utf8.form_eq, hnumber, if_pos hsmall, UInt8.ofNat_toNat]
  · simp only [opening, if_neg hsmall] at h
    split_ifs at h

/-- The first byte of the form of a character is the character, or it begins what the character fits. -/
theorem exists_opening (c : Char) :
    (∃ b, utf8EncodeChar c = [b] ∧ opening b = .whole c) ∨
      ∃ b p, opening b = .longer p ∧ p.Fits c.toNat ∧
        utf8EncodeChar c = b :: trail p.owed c.toNat := by
  have hbyte : ∀ {n : Nat}, n < 256 → (UInt8.ofNat n).toNat = n := fun hn => UInt8.toNat_ofNat_of_lt hn
  have hlonger : ∀ {b p}, Opens b p → p.Fits c.toNat → ∃ b p, opening b = .longer p ∧
      p.Fits c.toNat ∧ utf8EncodeChar c = b :: trail p.owed c.toNat := fun hopens hfits =>
    ⟨_, _, opening_eq_longer_iff.2 hopens, hfits, hopens.form_eq hfits⟩
  have hvalid : c.toNat < 0xd800 ∨ 0xdfff < c.toNat ∧ c.toNat < 0x110000 := c.valid
  by_cases hone : c.toNat ≤ 0x7f
  · refine .inl ⟨UInt8.ofNat c.toNat, by rw [Utf8.form_eq, if_pos hone], ?_⟩
    rw [opening, hbyte (by omega), if_pos hone, Char.ofNat_toNat]
  by_cases htwo : c.toNat ≤ 0x7ff
  · refine .inr (hlonger (b := UInt8.ofNat (0xc0 + c.toNat / 64)) (.two (n := c.toNat / 64)
      (by omega) (by omega) (hbyte (by omega))) ⟨?_, ?_, ?_⟩) <;> simp only [Pending.asked] <;> omega
  by_cases hthree : c.toNat ≤ 0xffff
  · refine .inr (hlonger (b := UInt8.ofNat (0xe0 + c.toNat / 4096)) (.three (n := c.toNat / 4096)
      (by omega) (hbyte (by omega))) ⟨rfl, ?_, ?_⟩)
    · simp only [Pending.asked]
      split <;> omega
    · simp only [Pending.asked]
      split <;> omega
  · refine .inr (hlonger (b := UInt8.ofNat (0xf0 + c.toNat / 262144)) (.four (n := c.toNat / 262144)
      (by omega) (hbyte (by omega))) ⟨rfl, ?_, ?_⟩)
    · simp only [Pending.asked]
      split <;> omega
    · simp only [Pending.asked]
      split <;> omega

/-! ### The machine -/

/-- There is a number that fits: the least byte within the bounds, and no bits in the others. -/
theorem Pending.IsSound.exists_fits {p : Pending} (h : p.IsSound) : ∃ v, p.Fits v := by
  obtain ⟨hpos, hleast, hlow, hgreatest, -⟩ := h
  have hsize : 0 < 64 ^ (p.owed - 1) := Nat.pow_pos (by decide)
  have hbits : (p.bits * 64 + (p.low - 0x80)) * 64 ^ (p.owed - 1) / 64 ^ (p.owed - 1)
      = p.bits * 64 + (p.low - 0x80) := Nat.mul_div_cancel _ hsize
  have hasked : p.asked ((p.bits * 64 + (p.low - 0x80)) * 64 ^ (p.owed - 1)) = p.low := by
    rw [asked, hbits]
    omega
  refine ⟨_, ?_, Nat.le_of_eq hasked.symm, le_of_eq_of_le hasked hlow⟩
  rw [← Nat.sub_add_cancel hpos, Nat.pow_succ, ← Nat.div_div_eq_div_mul, Nat.add_sub_cancel, hbits]
  omega

theorem trail_owed {p : Pending} (h : 0 < p.owed) (v : Nat) :
    trail p.owed v = UInt8.ofNat (p.asked v) :: trail (p.owed - 1) v := by
  obtain ⟨n, hn⟩ : ∃ n, p.owed = n + 1 := ⟨p.owed - 1, by omega⟩
  rw [Pending.asked, hn]
  rfl

theorem toNat_asked (p : Pending) (v : Nat) : (UInt8.ofNat (p.asked v)).toNat = p.asked v :=
  UInt8.toNat_ofNat_of_lt (by rw [Pending.asked, UInt8.size]; omega)

/-- A number fits after a byte within the bounds if it did before and asked for that byte. -/
theorem Pending.fits_next_iff {p : Pending} (hmore : 1 < p.owed) {b : UInt8} (hlow : p.low ≤ b.toNat)
    (hhigh : b.toNat ≤ p.high) (hsound : p.IsSound) (v : Nat) :
    (p.next b).Fits v ↔ p.Fits v ∧ b.toNat = p.asked v := by
  have hstep : v / 64 ^ p.owed = v / 64 ^ (p.owed - 1) / 64 := by
    rw [Nat.div_div_eq_div_mul, ← Nat.pow_succ, Nat.succ_eq_add_one, Nat.sub_add_cancel (by omega)]
  have hleast := hsound.least
  constructor
  · intro h
    have hbits : v / 64 ^ (p.owed - 1) = p.bits * 64 + (b.toNat - 0x80) := h.bits_eq
    have hgreatest := hsound.greatest
    have hasked : b.toNat = p.asked v := by
      rw [asked, hbits]
      omega
    refine ⟨⟨?_, hasked ▸ hlow, hasked ▸ hhigh⟩, hasked⟩
    rw [hstep, hbits]
    omega
  · intro h'
    obtain ⟨h, hasked⟩ := h'
    rw [asked] at hasked
    have hbits := h.bits_eq
    rw [hstep] at hbits
    refine ⟨?_, Nat.le_add_right _ _, ?_⟩
    · show v / 64 ^ (p.owed - 1) = p.bits * 64 + (b.toNat - 0x80)
      omega
    · show 0x80 + v / 64 ^ (p.owed - 1 - 1) % 64 ≤ 0xbf
      omega

theorem Pending.IsSound.next {p : Pending} (h : p.IsSound) (hmore : 1 < p.owed) {b : UInt8}
    (hlow : p.low ≤ b.toNat) (hhigh : b.toNat ≤ p.high) : (p.next b).IsSound where
  owed_pos := by
    show 0 < p.owed - 1
    omega
  least := Nat.le_refl _
  low_le_high := Nat.le_of_ble_eq_true rfl
  greatest := Nat.le_refl _
  valid v hv := h.valid v ((Pending.fits_next_iff hmore hlow hhigh h v).1 hv).1

/-- The last byte of a character tells its number. -/
theorem Pending.fits_last_iff {p : Pending} (hlast : p.owed = 1) {b : UInt8} (hlow : p.low ≤ b.toNat)
    (hhigh : b.toNat ≤ p.high) (hsound : p.IsSound) (v : Nat) :
    v = p.bits * 64 + (b.toNat - 0x80) ↔ p.Fits v ∧ b.toNat = p.asked v := by
  have hleast := hsound.least
  have hgreatest := hsound.greatest
  have hasked : p.asked v = 0x80 + v % 64 := by
    rw [asked, hlast, Nat.sub_self, Nat.pow_zero, Nat.div_one]
  constructor
  · intro h
    have hbyte : b.toNat = p.asked v := by
      rw [hasked]
      omega
    refine ⟨⟨?_, hbyte ▸ hlow, hbyte ▸ hhigh⟩, hbyte⟩
    rw [hlast, Nat.pow_one]
    omega
  · intro h'
    obtain ⟨h, hbyte⟩ := h'
    have hbits := h.bits_eq
    rw [hlast, Nat.pow_one] at hbits
    omega

theorem Pending.Fits.within {p : Pending} {v : Nat} (h : p.Fits v) :
    p.low ≤ (UInt8.ofNat (p.asked v)).toNat ∧ (UInt8.ofNat (p.asked v)).toNat ≤ p.high := by
  rw [toNat_asked]
  exact ⟨h.low_le, h.le_high⟩

theorem unitsFrom_within {p : Pending} {b : UInt8} (hlow : p.low ≤ b.toNat) (hhigh : b.toNat ≤ p.high)
    (rest : List UInt8) : unitsFrom (some p) (b :: rest) =
      if p.owed ≤ 1 then some (Char.ofNat (p.bits * 64 + (b.toNat - 0x80))) :: units rest
      else unitsFrom (some (p.next b)) rest := by
  rw [unitsFrom, if_pos ⟨hlow, hhigh⟩]
  rfl

/-- The machine reads the last bytes of a character that fits. -/
theorem unitsFrom_trail {p : Pending} (hsound : p.IsSound) {c : Char} (h : p.Fits c.toNat)
    (rest : List UInt8) : unitsFrom (some p) (trail p.owed c.toNat ++ rest) = some c :: units rest := by
  -- on the number of bytes that are still owed
  generalize hn : p.owed = n
  induction n generalizing p with
  | zero => exact absurd hsound.owed_pos (by omega)
  | succ n ih =>
    obtain ⟨hlow, hhigh⟩ := h.within
    rw [← hn, trail_owed hsound.owed_pos, List.cons_append, unitsFrom_within hlow hhigh]
    by_cases hlast : p.owed = 1
    · have hnumber := (Pending.fits_last_iff hlast hlow hhigh hsound c.toNat).2 ⟨h, toNat_asked p _⟩
      rw [if_pos (Nat.le_of_eq hlast), ← hnumber, Char.ofNat_toNat, hlast]
      rfl
    · have hpos := hsound.owed_pos
      have hmore : 1 < p.owed := by omega
      have howed : p.owed - 1 = n := by omega
      rw [if_neg (by omega), howed]
      exact ih (hsound.next hmore hlow hhigh)
        ((Pending.fits_next_iff hmore hlow hhigh hsound _).2 ⟨h, toNat_asked p _⟩) howed

/-- **The machine reads the form of a character.** -/
theorem units_form_append (c : Char) (rest : List UInt8) :
    units (utf8EncodeChar c ++ rest) = some c :: units rest := by
  rcases exists_opening c with ⟨b, hform, hwhole⟩ | ⟨b, p, hlonger, hfits, hform⟩
  · rw [hform, List.singleton_append, units, unitsFrom, unitsAtStart, hwhole]
    rfl
  · rw [hform, List.cons_append, units, unitsFrom, unitsAtStart, hlonger]
    exact unitsFrom_trail (opening_eq_longer_iff.1 hlonger).isSound hfits rest

/-! ### Characters that have begun -/

/-- Some bytes have begun a character, and the machine expects what fits. -/
structure Begun (part : List UInt8) (p : Pending) : Prop where
  sound : p.IsSound
  run : ∀ rest, units (part ++ rest) = unitsFrom (some p) rest
  ne_nil : part ≠ []
  fits : ∀ c, part <+: utf8EncodeChar c → p.Fits c.toNat
  form_eq : ∀ c : Char, p.Fits c.toNat → utf8EncodeChar c = part ++ trail p.owed c.toNat

theorem head_form {b : UInt8} {c : Char} (h : [b] <+: utf8EncodeChar c) :
    opening b = .whole c ∨ ∃ p, opening b = .longer p ∧ p.Fits c.toNat := by
  rcases exists_opening c with ⟨b', hform, hwhole⟩ | ⟨b', p, hlonger, hfits, hform⟩
  · rw [hform, List.cons_prefix_cons] at h
    rw [h.1]
    exact .inl hwhole
  · rw [hform, List.cons_prefix_cons] at h
    rw [h.1]
    exact .inr ⟨p, hlonger, hfits⟩

theorem begun_of_opening {b : UInt8} {p : Pending} (h : opening b = .longer p) : Begun [b] p where
  sound := (opening_eq_longer_iff.1 h).isSound
  run rest := by
    rw [List.singleton_append, units, unitsFrom, unitsAtStart, h]
  ne_nil := List.cons_ne_nil _ _
  fits c hc := by
    rcases head_form hc with hwhole | ⟨p', hlonger, hfits⟩
    · rw [h] at hwhole
      cases hwhole
    · rw [h] at hlonger
      cases hlonger
      exact hfits
  form_eq c hc := (opening_eq_longer_iff.1 h).form_eq hc

namespace Begun

variable {part : List UInt8} {p : Pending} {b : UInt8}

/-- A byte that some character asks for is the one behind the part. -/
theorem asked_of_prefix (h : Begun part p) {c : Char} {more : List UInt8}
    (hc : part ++ b :: more <+: utf8EncodeChar c) : p.Fits c.toNat ∧ b.toNat = p.asked c.toNat := by
  have hfits := h.fits c ((List.prefix_append _ _).trans hc)
  rw [h.form_eq c hfits, List.prefix_append_right_inj, trail_owed h.sound.owed_pos,
    List.cons_prefix_cons] at hc
  refine ⟨hfits, ?_⟩
  rw [hc.1, toNat_asked]

theorem next (h : Begun part p) (hmore : 1 < p.owed) (hlow : p.low ≤ b.toNat)
    (hhigh : b.toNat ≤ p.high) : Begun (part ++ [b]) (p.next b) where
  sound := h.sound.next hmore hlow hhigh
  run rest := by
    rw [List.append_assoc, List.singleton_append, h.run, unitsFrom_within hlow hhigh,
      if_neg (by omega)]
  ne_nil := by simp
  fits c hc := (Pending.fits_next_iff hmore hlow hhigh h.sound _).2 (h.asked_of_prefix hc)
  form_eq c hc := by
    obtain ⟨hfits, hasked⟩ := (Pending.fits_next_iff hmore hlow hhigh h.sound _).1 hc
    rw [h.form_eq c hfits, trail_owed h.sound.owed_pos, ← hasked, UInt8.ofNat_toNat,
      List.append_assoc]
    rfl

theorem last (h : Begun part p) (hlast : p.owed = 1) (hlow : p.low ≤ b.toNat)
    (hhigh : b.toNat ≤ p.high) :
    utf8EncodeChar (Char.ofNat (p.bits * 64 + (b.toNat - 0x80))) = part ++ [b] := by
  obtain ⟨hfits, hasked⟩ := (Pending.fits_last_iff hlast hlow hhigh h.sound _).1 rfl
  have hnumber := toNat_ofNat (h.sound.valid _ hfits)
  rw [h.form_eq _ (hnumber.symm ▸ hfits), hnumber, trail_owed h.sound.owed_pos, ← hasked,
    UInt8.ofNat_toNat, hlast]
  rfl

/-- A part that the next byte does not go on is broken off. -/
theorem broken (h : Begun part p) (rest : List UInt8)
    (hstop : ∀ b ∈ rest.head?, ¬ (p.low ≤ b.toNat ∧ b.toNat ≤ p.high)) :
    Broken part rest ∧ units (part ++ rest) = none :: units rest := by
  have hrun : units (part ++ rest) = none :: units rest := by
    rw [h.run]
    cases rest with
    | nil => rfl
    | cons b rest =>
      rw [unitsFrom, if_neg (hstop b rfl)]
      rfl
  refine ⟨⟨h.ne_nil, ?_, .inr ?_, ?_⟩, hrun⟩
  · intro c hc
    obtain ⟨behind, hbehind⟩ := hc
    rw [← hbehind, units_form_append] at hrun
    cases hrun
  · obtain ⟨v, hfits⟩ := h.sound.exists_fits
    have hnumber := toNat_ofNat (h.sound.valid v hfits)
    exact ⟨Char.ofNat v, by rw [h.form_eq _ (hnumber.symm ▸ hfits)]; exact List.prefix_append _ _⟩
  · intro more c hmore hc
    by_contra hlong
    obtain ⟨ahead, rfl⟩ := List.prefix_of_prefix_length_le (List.prefix_append part rest) hmore
      (by omega)
    cases ahead with
    | nil => simp at hlong
    | cons b ahead =>
      obtain ⟨hfits, hasked⟩ := h.asked_of_prefix hc
      rw [List.prefix_append_right_inj] at hmore
      obtain ⟨later, rfl⟩ := hmore
      exact hstop b rfl (hasked ▸ ⟨hfits.low_le, hfits.le_high⟩)

end Begun

theorem length_form_pos (c : Char) : 0 < (utf8EncodeChar c).length := by
  rcases exists_opening c with ⟨b, hform, -⟩ | ⟨b, p, -, -, hform⟩ <;>
  · rw [hform]
    exact Nat.succ_pos _

/-- A byte that begins nothing is broken by itself. -/
theorem broken_of_invalid {b : UInt8} (h : opening b = .invalid) (rest : List UInt8) :
    Broken [b] rest := by
  have hnone : ∀ c, ¬ [b] <+: utf8EncodeChar c := by
    intro c hc
    rcases head_form hc with hwhole | ⟨p, hlonger, -⟩
    · rw [h] at hwhole
      cases hwhole
    · rw [h] at hlonger
      cases hlonger
  have hfirst : ∀ {more : List UInt8}, more <+: [b] ++ rest → 0 < more.length → [b] <+: more :=
    fun hmore hpos => List.prefix_of_prefix_length_le (List.prefix_append [b] rest) hmore hpos
  refine ⟨List.cons_ne_nil _ _, fun c hc => hnone c (hfirst hc (length_form_pos c)), .inl rfl, ?_⟩
  intro more c hmore hc
  by_contra hlong
  exact hnone c ((hfirst hmore (Nat.zero_lt_of_lt (Nat.not_le.1 hlong))).trans hc)

/-- From a part that has begun, the machine cuts off a character or a broken part. -/
theorem Begun.cases {part : List UInt8} {p : Pending} (h : Begun part p) (rest : List UInt8) :
    (∃ c later, part ++ rest = utf8EncodeChar c ++ later ∧
      units (part ++ rest) = some c :: units later) ∨
    ∃ front later, part ++ rest = front ++ later ∧ Broken front later ∧
      units (part ++ rest) = none :: units later := by
  induction rest generalizing part p with
  | nil =>
    obtain ⟨hbroken, hrun⟩ := h.broken [] (fun b hb => by cases hb)
    exact .inr ⟨part, [], rfl, hbroken, hrun⟩
  | cons b rest ih =>
    by_cases hwithin : p.low ≤ b.toNat ∧ b.toNat ≤ p.high
    · obtain ⟨hlow, hhigh⟩ := hwithin
      rw [List.append_cons]
      by_cases hlast : p.owed = 1
      · refine .inl ⟨_, rest, by rw [h.last hlast hlow hhigh], ?_⟩
        rw [← h.last hlast hlow hhigh, units_form_append]
      · have hpos := h.sound.owed_pos
        exact ih (h.next (by omega) hlow hhigh)
    · obtain ⟨hbroken, hrun⟩ := h.broken (b :: rest) (fun b' hb => by
        cases hb
        exact hwithin)
      exact .inr ⟨part, b :: rest, rfl, hbroken, hrun⟩

/-- **The machine cuts off one piece after another**: the form of a character or a broken part. -/
theorem units_cases {bytes : List UInt8} (h : bytes ≠ []) :
    (∃ c later, bytes = utf8EncodeChar c ++ later ∧ units bytes = some c :: units later) ∨
    ∃ front later, bytes = front ++ later ∧ Broken front later ∧
      units bytes = none :: units later := by
  obtain ⟨b, rest, rfl⟩ := List.exists_cons_of_ne_nil h
  cases hopening : opening b with
  | whole c =>
    have hform := form_of_whole hopening
    refine .inl ⟨c, rest, by rw [hform]; rfl, ?_⟩
    rw [← units_form_append, hform]
    rfl
  | longer p => exact (begun_of_opening hopening).cases rest
  | invalid =>
    refine .inr ⟨[b], rest, rfl, broken_of_invalid hopening rest, ?_⟩
    rw [units, unitsFrom, unitsAtStart, hopening]
    rfl

/-! ### What byte sequences read as -/

theorem Broken.length_unique {part rest front later : List UInt8} (h : Broken part rest)
    (h' : Broken front later) (heq : part ++ rest = front ++ later) : front.length ≤ part.length := by
  rcases h'.begun with hone | ⟨c, hc⟩
  · rw [hone]
    exact List.length_pos_iff.2 h.ne_nil
  · exact h.longest front c (heq ▸ List.prefix_append _ _) hc

/-- The machine reads a broken part as one. -/
theorem Broken.units_append {part rest : List UInt8} (h : Broken part rest) :
    units (part ++ rest) = none :: units rest := by
  rcases units_cases (List.append_ne_nil_of_left_ne_nil h.ne_nil rest) with
    ⟨c, later, heq, -⟩ | ⟨front, later, heq, hfront, hrun⟩
  · exact absurd (heq ▸ List.prefix_append _ _) (h.no_char c)
  · obtain ⟨rfl, rfl⟩ := List.append_inj heq
      (Nat.le_antisymm (hfront.length_unique h heq.symm) (h.length_unique hfront heq))
    exact hrun

/-- What the machine reads, with replacement characters for the broken parts, is what a byte sequence
reads as. -/
theorem reads_iff {bytes : List UInt8} {cs : List Char} :
    Reads bytes cs ↔ (units bytes).map (·.getD replacement) = cs := by
  constructor
  · intro h
    induction h with
    | nil => rfl
    | char c _ ih => rw [units_form_append, List.map_cons, ih, Option.getD_some]
    | broken hbroken _ ih => rw [hbroken.units_append, List.map_cons, ih, Option.getD_none]
  · -- on the length: each piece leaves fewer bytes
    rintro rfl
    generalize hn : bytes.length = n
    induction n using Nat.strong_induction_on generalizing bytes with
    | _ n ih =>
      by_cases hnil : bytes = []
      · rw [hnil]
        exact .nil
      rcases units_cases hnil with ⟨c, later, rfl, hrun⟩ | ⟨front, later, rfl, hfront, hrun⟩
      · rw [hrun]
        have hpos := length_form_pos c
        rw [List.length_append] at hn
        exact .char c (ih _ (by omega) rfl)
      · rw [hrun]
        have hpos := List.length_pos_iff.2 hfront.ne_nil
        rw [List.length_append] at hn
        exact .broken hfront (ih _ (by omega) rfl)

/-- **The text of a byte sequence with replacement characters** is the one that it reads as. -/
theorem decodeLossy_eq_iff {bytes : List UInt8} {s : String} :
    decodeLossy bytes = s ↔ Reads bytes s.toList := by
  rw [reads_iff, decodeLossy]
  constructor
  · rintro rfl
    rw [String.toList_ofList]
  · intro h
    rw [h, String.ofList_toList]

theorem reads_flatMap (cs : List Char) : Reads (cs.flatMap utf8EncodeChar) cs := by
  induction cs with
  | nil => exact .nil
  | cons c cs ih => exact .char c ih

theorem Reads.unique {bytes : List UInt8} {cs cs' : List Char} (h : Reads bytes cs)
    (h' : Reads bytes cs') : cs = cs' := by
  rw [← reads_iff.1 h, ← reads_iff.1 h']

/-- Without replacement characters nothing is broken. -/
theorem Reads.eq_flatMap {bytes : List UInt8} {cs : List Char} (h : Reads bytes cs)
    (hwhole : replacement ∉ cs) : bytes = cs.flatMap utf8EncodeChar := by
  induction h with
  | nil => rfl
  | char c _ ih => rw [List.flatMap_cons, ← ih fun hmem => hwhole (List.mem_cons_of_mem _ hmem)]
  | broken _ _ _ => exact absurd (List.mem_cons_self ..) hwhole

/-- **Without replacement characters**, in a text or behind it, the bytes of the text are the only ones
that read as it. -/
theorem decodeLossy_eq_iff_encode {bytes : List UInt8} {s : String}
    (h : IsText bytes ∨ replacement ∉ s.toList) : decodeLossy bytes = s ↔ bytes = encode s := by
  rw [decodeLossy_eq_iff]
  constructor
  · intro hreads
    rcases h with ⟨t, rfl⟩ | hwhole
    · rw [String.toList_inj.1 ((reads_flatMap t.toList).unique hreads)]
    · exact hreads.eq_flatMap hwhole
  · rintro rfl
    exact reads_flatMap s.toList

end MigrationBench.Utf8
