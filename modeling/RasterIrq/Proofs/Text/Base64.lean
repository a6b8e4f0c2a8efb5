import RasterIrq.Text.Base64
import RasterIrq.Text.Blank
import Mathlib.Data.List.TakeWhile
import Mathlib.Data.Nat.Bitwise

/-!
# Base64 texts are read back

Encoding takes bytes apart into digits of six bits, and decoding puts them together again. Both join
the low bits of one word and the high bits of the next, so all of it comes down to one fact about
such a join. No character of the alphabet is the padding, which tells the last group from the
others, and none is blank, so a text can stand between blanks.

Results:
1. `Base64.toNat_shiftLeft_or`: joining low bits and high bits is a sum.
2. `Base64.decode?_encode`: what is encoded is decoded.
3. `Base64.decode?_trim_encode`: so it is between any blanks.
-/

namespace RasterIrq

namespace Base64

/-! ## Joining bits -/

/-- Bits that are shifted up and bits that fit in below them do not overlap. -/
theorem toNat_shiftLeft_or (high low : UInt8) {k : Nat} (hk : k < 8) (hlow : low.toNat < 2 ^ k) :
    (high <<< UInt8.ofNat k ||| low).toNat = 2 ^ k * (high.toNat % 2 ^ (8 - k)) + low.toNat := by
  have hshift : (high <<< UInt8.ofNat k).toNat = 2 ^ k * (high.toNat % 2 ^ (8 - k)) := by
    have hamount : (UInt8.ofNat k).toNat % 8 = k := by
      rw [UInt8.toNat_ofNat']
      omega
    have hword : 2 ^ 8 = 2 ^ k * 2 ^ (8 - k) := by
      rw [← Nat.pow_add]
      congr 1
      omega
    rw [UInt8.toNat_shiftLeft, hamount, Nat.shiftLeft_eq, Nat.mul_comm, hword,
      Nat.mul_mod_mul_left]
  rw [UInt8.toNat_or, hshift, ← Nat.two_pow_add_eq_or_of_lt hlow]

theorem toNat_shiftRight (w : UInt8) {k : Nat} (hk : k < 8) :
    (w >>> UInt8.ofNat k).toNat = w.toNat / 2 ^ k := by
  have hamount : (UInt8.ofNat k).toNat % 8 = k := by
    rw [UInt8.toNat_ofNat']
    omega
  rw [UInt8.toNat_shiftRight, hamount, Nat.shiftRight_eq_div_pow]

theorem toNat_mask (w : UInt8) {mask : UInt8} {k : Nat} (hmask : mask.toNat = 2 ^ k - 1) :
    (w &&& mask).toNat = w.toNat % 2 ^ k := by
  rw [UInt8.toNat_and, hmask, Nat.and_two_pow_sub_one_eq_mod]

/-- A word is joined from its own bits. -/
theorem join_eq {high low w : UInt8} {k : Nat} (hk : k < 8)
    (hhigh : high.toNat % 2 ^ (8 - k) = w.toNat / 2 ^ k) (hlow : low.toNat = w.toNat % 2 ^ k) :
    high <<< UInt8.ofNat k ||| low = w := by
  have hlt : low.toNat < 2 ^ k := hlow ▸ Nat.mod_lt _ (Nat.two_pow_pos k)
  rw [← UInt8.toNat_inj, toNat_shiftLeft_or high low hk hlt, hhigh, hlow, Nat.div_add_mod]

/-! ## The digits of a group -/

section Digits

variable (a b c : UInt8)

theorem toNat_first : (a >>> 2).toNat = a.toNat / 4 :=
  toNat_shiftRight a (k := 2) (by decide)

theorem toNat_second :
    ((a &&& 0x03) <<< 4 ||| b >>> 4).toNat = 16 * (a.toNat % 4) + b.toNat / 16 := by
  have hhigh : (a &&& 0x03).toNat = a.toNat % 4 := toNat_mask a (k := 2) rfl
  have hlow : (b >>> 4).toNat = b.toNat / 16 := toNat_shiftRight b (k := 4) (by decide)
  have hb := b.toNat_lt
  have hjoin := toNat_shiftLeft_or (a &&& 0x03) (b >>> 4) (k := 4) (by decide) (by omega)
  rw [hhigh, hlow] at hjoin
  exact hjoin.trans (by omega)

theorem toNat_third :
    ((b &&& 0x0F) <<< 2 ||| c >>> 6).toNat = 4 * (b.toNat % 16) + c.toNat / 64 := by
  have hhigh : (b &&& 0x0F).toNat = b.toNat % 16 := toNat_mask b (k := 4) rfl
  have hlow : (c >>> 6).toNat = c.toNat / 64 := toNat_shiftRight c (k := 6) (by decide)
  have hc := c.toNat_lt
  have hjoin := toNat_shiftLeft_or (b &&& 0x0F) (c >>> 6) (k := 2) (by decide) (by omega)
  rw [hhigh, hlow] at hjoin
  exact hjoin.trans (by omega)

theorem toNat_fourth : (c &&& 0x3F).toNat = c.toNat % 64 :=
  toNat_mask c (k := 6) rfl

/-- In a last group of one byte nothing follows the byte. -/
theorem toNat_lastSecond : ((a &&& 0x03) <<< 4).toNat = 16 * (a.toNat % 4) := by
  simpa using toNat_second a 0

/-- In a last group of two bytes nothing follows the second one. -/
theorem toNat_lastThird : ((b &&& 0x0F) <<< 2).toNat = 4 * (b.toNat % 16) := by
  simpa using toNat_third b 0

end Digits

/-! ## Decoding -/

section Decoding

variable {x y z w a b c : UInt8}

theorem firstByte (hx : x.toNat = a.toNat / 4) (hy : y.toNat / 16 = a.toNat % 4) :
    x <<< 2 ||| y >>> 4 = a := by
  have ha := a.toNat_lt
  have hlow : (y >>> 4).toNat = y.toNat / 16 := toNat_shiftRight y (k := 4) (by decide)
  exact join_eq (k := 2) (by decide) (by omega) (by omega)

theorem secondByte (hy : y.toNat % 16 = b.toNat / 16) (hz : z.toNat / 4 = b.toNat % 16) :
    y <<< 4 ||| z >>> 2 = b := by
  have hlow : (z >>> 2).toNat = z.toNat / 4 := toNat_shiftRight z (k := 2) (by decide)
  exact join_eq (k := 4) (by decide) (by omega) (by omega)

theorem thirdByte (hz : z.toNat % 4 = c.toNat / 64) (hw : w.toNat = c.toNat % 64) :
    z <<< 6 ||| w = c :=
  join_eq (k := 6) (by decide) (by omega) (by omega)

end Decoding

theorem digit_ne_padding {v : UInt8} (h : v < 64) : digit v ≠ '=' := by
  intro heq
  have hvalue := value?_digit v h
  rw [heq] at hvalue
  cases hvalue

theorem lt_64 {v : UInt8} (h : v.toNat < 64) : v < 64 :=
  UInt8.lt_iff_toNat_lt.mpr h

/-- What is encoded is decoded. -/
theorem decode?_encode (bytes : List UInt8) : decode? (encode bytes) = some bytes := by
  induction bytes using encode.induct with
  | case1 => rfl
  | case2 a =>
    have ha := a.toNat_lt
    have hx := toNat_first a
    have hy := toNat_lastSecond a
    have hrest : (a &&& 0x03) <<< 4 &&& 0x0F = (0 : UInt8) := by
      rw [← UInt8.toNat_inj, toNat_mask _ (k := 4) rfl, hy]
      show 16 * (a.toNat % 4) % 16 = 0
      omega
    rw [encode, decode?, lastOne?, value?_digit _ (lt_64 (by omega)),
      value?_digit _ (lt_64 (by omega))]
    show (if _ then some [_] else none) = _
    rw [if_pos hrest, firstByte hx (by omega)]
  | case3 a b =>
    have ha := a.toNat_lt
    have hb := b.toNat_lt
    have hx := toNat_first a
    have hy := toNat_second a b
    have hz := toNat_lastThird b
    have hrest : (b &&& 0x0F) <<< 2 &&& 0x03 = (0 : UInt8) := by
      rw [← UInt8.toNat_inj, toNat_mask _ (k := 2) rfl, hz]
      show 4 * (b.toNat % 16) % 4 = 0
      omega
    have hlt : (b &&& 0x0F) <<< 2 < 64 := lt_64 (by omega)
    rw [encode, decode?.eq_3 _ _ _ (digit_ne_padding hlt), lastTwo?,
      value?_digit _ (lt_64 (by omega)), value?_digit _ (lt_64 (by omega)), value?_digit _ hlt]
    show (if _ then some [_, _] else none) = _
    rw [if_pos hrest, firstByte hx (by omega), secondByte (b := b) (by omega) (by omega)]
  | case4 a b c rest ih =>
    have ha := a.toNat_lt
    have hb := b.toNat_lt
    have hc := c.toNat_lt
    have hx := toNat_first a
    have hy := toNat_second a b
    have hz := toNat_third b c
    have hw := toNat_fourth c
    have hlast : digit (c &&& 0x3F) ≠ '=' := digit_ne_padding (lt_64 (by omega))
    rw [encode, decode?.eq_4 _ _ _ _ _ (fun _ h _ => hlast h) (fun h _ => hlast h),
      value?_digit _ (lt_64 (by omega)), value?_digit _ (lt_64 (by omega)),
      value?_digit _ (lt_64 (by omega)), value?_digit _ (lt_64 (by omega)), ih]
    show some (_ :: _ :: _ :: _) = _
    rw [firstByte hx (by omega), secondByte (b := b) (by omega) (by omega), thirdByte (by omega) hw]

end Base64

/-! ## Between blanks -/

namespace Blank

/-- A text without blanks is found between blanks. -/
theorem trim_between {before text after : List Char} (hbefore : ∀ c ∈ before, isBlank c = true)
    (htext : ∀ c ∈ text, isBlank c = false) (hafter : ∀ c ∈ after, isBlank c = true) :
    trim (before ++ text ++ after) = text := by
  have hkeeps : ∀ cs : List Char, (∀ c ∈ cs, isBlank c = false) → cs.dropWhile isBlank = cs := by
    intro cs hcs
    cases cs with
    | nil => rfl
    | cons c cs =>
      have hc := hcs c List.mem_cons_self
      exact List.dropWhile_cons_of_neg (hc ▸ Bool.false_ne_true)
  have hdrops : after.dropWhile isBlank = [] := List.dropWhile_eq_nil_iff.mpr hafter
  have hfirst : (text ++ after).dropWhile isBlank = if text = [] then [] else text ++ after := by
    rw [List.dropWhile_append, hkeeps text htext, hdrops]
    simp only [List.isEmpty_iff]
  have hlast : (after.reverse ++ text.reverse).dropWhile isBlank = text.reverse := by
    rw [List.dropWhile_append_of_pos fun c hc => hafter c (List.mem_reverse.mp hc)]
    exact hkeeps _ fun c hc => htext c (List.mem_reverse.mp hc)
  rw [trim, List.append_assoc, List.dropWhile_append_of_pos hbefore, hfirst]
  split
  · next hempty => rw [hempty]; rfl
  · rw [List.reverse_append, hlast, List.reverse_reverse]

end Blank

namespace Base64

theorem not_blank_digit (v : UInt8) : Blank.isBlank (digit v) = false := by
  by_cases hv : v.toNat < 64
  · have hall : ∀ n : Fin 64, Blank.isBlank (digit (UInt8.ofNat n.val)) = false := by decide
    simpa using hall ⟨v.toNat, hv⟩
  · have hslash : digit v = '/' := by
      unfold digit
      dsimp only
      rw [if_neg (by omega), if_neg (by omega), if_neg (by omega), if_neg (by omega)]
    rw [hslash]
    decide

theorem not_blank_of_mem_encode {bytes : List UInt8} {c : Char} (h : c ∈ encode bytes) :
    Blank.isBlank c = false := by
  have hpadding : Blank.isBlank '=' = false := by decide
  induction bytes using encode.induct with
  | case1 => cases h
  | case2 a =>
    simp only [encode, List.mem_cons, List.not_mem_nil, or_false] at h
    rcases h with rfl | rfl | rfl | rfl
    exacts [not_blank_digit _, not_blank_digit _, hpadding, hpadding]
  | case3 a b =>
    simp only [encode, List.mem_cons, List.not_mem_nil, or_false] at h
    rcases h with rfl | rfl | rfl | rfl
    exacts [not_blank_digit _, not_blank_digit _, not_blank_digit _, hpadding]
  | case4 a b c rest ih =>
    simp only [encode, List.mem_cons] at h
    rcases h with rfl | rfl | rfl | rfl | hrest
    exacts [not_blank_digit _, not_blank_digit _, not_blank_digit _, not_blank_digit _, ih hrest]

/-- What is encoded is decoded between any blanks. -/
theorem decode?_trim_encode {before after : List Char}
    (hbefore : ∀ c ∈ before, Blank.isBlank c = true)
    (hafter : ∀ c ∈ after, Blank.isBlank c = true) (bytes : List UInt8) :
    decode? (Blank.trim (before ++ encode bytes ++ after)) = some bytes := by
  rw [Blank.trim_between hbefore (fun _ => not_blank_of_mem_encode) hafter, decode?_encode]

end Base64

end RasterIrq
