import RasterIrq.Json.Tree

/-!
# Written values scan back

What `Json.compact` writes is cut into exactly the tokens it was written from. A token is *readable*
if the grammar could have produced it: escaped units of a string are no ASCII characters, and a
number follows the number grammar. Only words touch what follows them, so a readable token scans
back in front of any text that does not go on with a word byte.

Results:
1. `Piece.scan_spellings`: a string's content is read up to its closing quote.
2. `Token.scanFrom_spelling`: one written token is one scanned token.
3. `scan_compact`: a readable value's text has the tokens of the value.
-/

namespace RasterIrq.Json

/-! ## Strings -/

namespace Piece

/-- Pieces that a reader can produce: an escape that stands for an ASCII character is a byte. -/
def Readable : Piece → Prop
  | byte _ => True
  | unit u => 0x80 ≤ u

theorem hexValue?_hexDigit {n : Nat} (h : n < 16) : hexValue? (hexDigit n) = some (UInt16.ofNat n) := by
  have hall : ∀ n : Fin 16, hexValue? (hexDigit n.val) = some (UInt16.ofNat n.val) := by decide
  exact hall ⟨n, h⟩

/-- The four digits of an escape spell the unit. -/
theorem ofHex?_escape (u : UInt16) :
    ofHex? (hexDigit (u.toNat / 0x1000)) (hexDigit (u.toNat / 0x100 % 16))
      (hexDigit (u.toNat / 16 % 16)) (hexDigit (u.toNat % 16)) = some u := by
  have hu : u.toNat < 65536 := u.toNat_lt
  simp only [ofHex?, hexValue?_hexDigit (show u.toNat / 0x1000 < 16 by omega),
    hexValue?_hexDigit (Nat.mod_lt _ (by decide : 16 > 0)), Option.bind_eq_bind, Option.bind_some,
    Option.pure_def, Option.some.injEq]
  apply UInt16.toNat_inj.mp
  simp only [UInt16.toNat_add, UInt16.toNat_mul, UInt16.toNat_ofNat']
  have h16 : (16 : UInt16).toNat = 16 := rfl
  rw [h16]
  omega

theorem scan_escape (u : UInt16) (seen : List Piece) (rest : List UInt8) :
    scan seen (escape u ++ rest) = scan (ofUnit u :: seen) rest := by
  have hq : ascii '\\' ≠ ascii '"' := by decide
  simp only [escape, List.cons_append, List.nil_append]
  rw [scan]
  simp only [hq, ↓reduceIte, ofHex?_escape]

theorem scan_short {e v : UInt8} (he : e ≠ ascii 'u') (h : ofShort? e = some v)
    (seen : List Piece) (rest : List UInt8) :
    scan seen (ascii '\\' :: e :: rest) = scan (byte v :: seen) rest := by
  have hq : ascii '\\' ≠ ascii '"' := by decide
  rw [scan.eq_def]
  simp only [hq, he, h, ↓reduceIte]

/-- A byte is written so that reading gives it back: with a backslash and one more byte, as an
escape, or as itself. -/
theorem scan_spelling_byte (b : UInt8) (seen : List Piece) (rest : List UInt8) :
    scan seen (spelling (byte b) ++ rest) = scan (byte b :: seen) rest := by
  simp only [spelling]
  split
  · next h => subst h; exact scan_short (by decide) (by decide) seen rest
  split
  · next h => subst h; exact scan_short (by decide) (by decide) seen rest
  split
  · next h => subst h; exact scan_short (by decide) (by decide) seen rest
  split
  · next h => subst h; exact scan_short (by decide) (by decide) seen rest
  split
  · next h => subst h; exact scan_short (by decide) (by decide) seen rest
  split
  · next h => subst h; exact scan_short (by decide) (by decide) seen rest
  split
  · next h => subst h; exact scan_short (by decide) (by decide) seen rest
  split
  · next h =>
    have hu : ofUnit b.toUInt16 = byte b := by
      have hb : b.toNat < 32 := UInt8.lt_iff_toNat_lt.mp h
      have hlt : b.toUInt16 < 0x80 := by
        apply UInt16.lt_iff_toNat_lt.mpr
        simp only [UInt8.toNat_toUInt16]
        have : (0x80 : UInt16).toNat = 128 := rfl
        omega
      simp [ofUnit, hlt]
    rw [scan_escape, hu]
  · next hquote hslash _ _ _ _ _ hcontrol =>
    rw [List.singleton_append, scan.eq_def]
    simp only [hquote, hslash, hcontrol, ↓reduceIte]

theorem scan_spelling {p : Piece} (hp : p.Readable) (seen : List Piece) (rest : List UInt8) :
    scan seen (spelling p ++ rest) = scan (p :: seen) rest := by
  cases p with
  | byte b => exact scan_spelling_byte b seen rest
  | unit u =>
    have hu : ofUnit u = unit u := by
      simp only [ofUnit, ite_eq_right_iff]
      intro h
      exact absurd hp (UInt16.not_le.mpr h)
    rw [spelling, scan_escape, hu]

/-- A written content is read up to its closing quote. -/
theorem scan_spellings {content : List Piece} (h : ∀ p ∈ content, p.Readable) (seen : List Piece)
    (rest : List UInt8) :
    scan seen (content.flatMap spelling ++ ascii '"' :: rest)
      = some (seen.reverse ++ content, rest) := by
  induction content generalizing seen with
  | nil =>
    rw [List.flatMap_nil, List.nil_append, scan.eq_def]
    simp
  | cons p content ih =>
    rw [List.flatMap_cons, List.append_assoc, scan_spelling (h p List.mem_cons_self),
      ih fun q hq => h q (List.mem_cons_of_mem p hq)]
    simp

end Piece

/-! ## Words -/

namespace Number

/-- The characters that numbers are written with. -/
def isNumberChar (c : Char) : Bool :=
  c.isDigit || c == '.' || c == 'e' || c == 'E' || c == '+' || c == '-'

theorem isNumberChar_of_isDigit {c : Char} (h : c.isDigit = true) : isNumberChar c = true := by
  simp [isNumberChar, h]

theorem isDigit_of_isDigits {cs : List Char} (h : isDigits cs = true) :
    ∀ c ∈ cs, c.isDigit = true := by
  simp only [isDigits, Bool.and_eq_true, List.all_eq_true] at h
  exact h.2

theorem isNumberChar_of_isExponent {cs : List Char} (h : isExponent cs = true) :
    ∀ c ∈ cs, isNumberChar c = true := by
  have hdigits : ∀ ds, isDigits ds = true → ∀ c ∈ ds, isNumberChar c = true :=
    fun ds hds c hc => isNumberChar_of_isDigit (isDigit_of_isDigits hds c hc)
  cases cs with
  | nil => simp
  | cons mark cs =>
    simp only [isExponent, Bool.and_eq_true, Bool.or_eq_true, beq_iff_eq] at h
    obtain ⟨hmark, hrest⟩ := h
    have hm : isNumberChar mark = true := by rcases hmark with rfl | rfl <;> decide
    rw [List.forall_mem_cons]
    refine ⟨hm, ?_⟩
    split at hrest
    · exact List.forall_mem_cons.mpr ⟨by decide, hdigits _ hrest⟩
    · exact List.forall_mem_cons.mpr ⟨by decide, hdigits _ hrest⟩
    · exact hdigits _ hrest

theorem isNumberChar_of_isTail {cs : List Char} (h : isTail cs = true) :
    ∀ c ∈ cs, isNumberChar c = true := by
  unfold isTail at h
  split at h
  · next cs =>
    rw [Bool.and_eq_true] at h
    rw [List.forall_mem_cons]
    refine ⟨by decide, fun c hc => ?_⟩
    rw [← List.takeWhile_append_dropWhile (p := Char.isDigit) (l := cs), List.mem_append] at hc
    rcases hc with hc | hc
    · exact isNumberChar_of_isDigit (isDigit_of_isDigits h.1 c hc)
    · exact isNumberChar_of_isExponent h.2 c hc
  · exact isNumberChar_of_isExponent h

theorem isNumberChar_of_isUnsigned {cs : List Char} (h : isUnsigned cs = true) :
    ∀ c ∈ cs, isNumberChar c = true := by
  simp only [isUnsigned, Bool.and_eq_true] at h
  intro c hc
  rw [← List.takeWhile_append_dropWhile (p := Char.isDigit) (l := cs), List.mem_append] at hc
  rcases hc with hc | hc
  · exact isNumberChar_of_isDigit (List.all_eq_true.mp List.all_takeWhile c hc)
  · exact isNumberChar_of_isTail h.2 c hc

theorem isNumberChar_of_isNumber {cs : List Char} (h : isNumber cs = true) :
    ∀ c ∈ cs, isNumberChar c = true := by
  unfold isNumber at h
  split at h
  · exact List.forall_mem_cons.mpr ⟨by decide, isNumberChar_of_isUnsigned h⟩
  · exact isNumberChar_of_isUnsigned h

theorem ne_nil_of_isNumber {cs : List Char} (h : isNumber cs = true) : cs ≠ [] := by
  rintro rfl
  exact absurd h (by decide)

end Number

namespace Token

/-- Characters that words are made of, all of them ASCII. -/
def IsWordChar (c : Char) : Prop :=
  isWordByte (ascii c) = true ∧ Char.ofUInt8 (ascii c) = c

theorem isWordChar_of_isNumberChar {c : Char} (h : Number.isNumberChar c = true) :
    IsWordChar c := by
  have hall : ∀ n : Fin 128, Number.isNumberChar (Char.ofNat n.val) = true →
      isWordByte (ascii (Char.ofNat n.val)) = true
        ∧ Char.ofUInt8 (ascii (Char.ofNat n.val)) = Char.ofNat n.val := by
    decide
  have hlt : c.toNat < 128 := by
    simp only [Number.isNumberChar, Char.isDigit, Bool.or_eq_true, beq_iff_eq, Bool.and_eq_true,
      decide_eq_true_eq] at h
    rcases h with ((((h | rfl) | rfl) | rfl) | rfl) | rfl
    · have := UInt32.le_iff_toNat_le.mp h.2
      exact Nat.lt_of_le_of_lt this (by decide)
    all_goals decide
  have := hall ⟨c.toNat, hlt⟩
  rw [Char.ofNat_toNat] at this
  exact this h

/-- A word byte is no blank, no mark and no quote. -/
theorem not_special_of_isWordByte {b : UInt8} (h : isWordByte b = true) :
    isBlank b = false ∧ ofMark? b = none ∧ b ≠ ascii '"' := by
  have hall : ∀ n : Fin 256, isWordByte (UInt8.ofNat n.val) = true →
      isBlank (UInt8.ofNat n.val) = false ∧ ofMark? (UInt8.ofNat n.val) = none
        ∧ UInt8.ofNat n.val ≠ ascii '"' := by
    decide +kernel
  have := hall ⟨b.toNat, b.toNat_lt⟩
  rw [UInt8.ofNat_toNat] at this
  exact this h

/-- A text that does not go on with a word byte, so that a word in front of it ends there. -/
def EndsWord (rest : List UInt8) : Prop :=
  ∀ b ∈ rest.head?, isWordByte b = false

theorem takeWhile_word {word : List Char} (hword : ∀ c ∈ word, IsWordChar c) {rest : List UInt8}
    (hrest : EndsWord rest) :
    (word.map ascii ++ rest).takeWhile isWordByte = word.map ascii
      ∧ (word.map ascii ++ rest).dropWhile isWordByte = rest := by
  have hall : ∀ b ∈ word.map ascii, isWordByte b = true := by
    intro b hb
    obtain ⟨c, hc, rfl⟩ := List.mem_map.mp hb
    exact (hword c hc).1
  rw [List.takeWhile_append_of_pos hall, List.dropWhile_append_of_pos hall]
  cases rest with
  | nil => simp
  | cons b rest =>
    have hb : isWordByte b = false := hrest b rfl
    simp [hb]

/-- A word in front of a text that ends it is one token. -/
theorem scanFrom_word {word : List Char} {a : Atom} (hword : ∀ c ∈ word, IsWordChar c)
    (ha : Atom.ofWord? word = some a) (hne : word ≠ []) (seen : List Token) {rest : List UInt8}
    (hrest : EndsWord rest) :
    scanFrom seen (word.map ascii ++ rest) = scanFrom (atom a :: seen) rest := by
  cases word with
  | nil => exact absurd rfl hne
  | cons c cs =>
    obtain ⟨hc, hcs⟩ := List.forall_mem_cons.mp hword
    obtain ⟨hblank, hmark, hquote⟩ := not_special_of_isWordByte hc.1
    obtain ⟨htake, hdrop⟩ := takeWhile_word hcs hrest
    have hback : (cs.map ascii).map Char.ofUInt8 = cs := by
      rw [List.map_map]
      exact (List.map_congr_left fun d hd => (hcs d hd).2).trans (List.map_id cs)
    rw [List.map_cons, List.cons_append, scanFrom]
    simp only [hblank, hmark, hquote, htake, hdrop, List.map_cons, hc.2, hback, ha, ↓reduceIte,
      Bool.false_eq_true]

end Token

/-! ## Tokens -/

/-- Atoms that a reader can produce. -/
def Atom.Readable : Atom → Prop
  | .number word => Number.isNumber word = true
  | .string content => ∀ p ∈ content, p.Readable
  | _ => True

namespace Token

theorem endsWord_cons {b : UInt8} (h : isWordByte b = false) (rest : List UInt8) :
    EndsWord (b :: rest) := by
  intro c hc
  cases hc
  exact h

theorem scanFrom_mark {b : UInt8} {t : Token} (hb : isBlank b = false) (ht : ofMark? b = some t)
    (seen : List Token) (rest : List UInt8) :
    scanFrom seen (b :: rest) = scanFrom (t :: seen) rest := by
  rw [scanFrom]
  simp [hb, ht]

theorem scanFrom_quote {s rest : List UInt8} {content : List Piece}
    (h : Piece.scan [] s = some (content, rest)) (seen : List Token) :
    scanFrom seen (ascii '"' :: s) = scanFrom (atom (.string content) :: seen) rest := by
  have hblank : isBlank (ascii '"') = false := by decide
  have hmark : ofMark? (ascii '"') = none := by decide
  rw [scanFrom]
  simp only [hblank, hmark, ↓reduceIte, Bool.false_eq_true]
  split
  · next content' rest' heq =>
    rw [h, Option.some.injEq, Prod.mk.injEq] at heq
    rw [heq.1, heq.2]
  · next heq =>
    rw [h] at heq
    cases heq

theorem scanFrom_string {content : List Piece} (h : ∀ p ∈ content, p.Readable)
    (seen : List Token) (rest : List UInt8) :
    scanFrom seen (ascii '"' :: (content.flatMap Piece.spelling ++ ascii '"' :: rest))
      = scanFrom (atom (.string content) :: seen) rest :=
  scanFrom_quote (Piece.scan_spellings h [] rest) seen

/-- A written atom in front of a text that ends words is one token. -/
theorem scanFrom_atom {a : Atom} (ha : a.Readable) (seen : List Token) {rest : List UInt8}
    (hrest : EndsWord rest) :
    scanFrom seen (a.spelling ++ rest) = scanFrom (atom a :: seen) rest := by
  have hletter : ∀ word : List Char,
      (word.all fun c => isWordByte (ascii c) && Char.ofUInt8 (ascii c) == c) = true →
      ∀ c ∈ word, IsWordChar c := by
    intro word h c hc
    obtain ⟨hbyte, hchar⟩ := Bool.and_eq_true_iff.mp (List.all_eq_true.mp h c hc)
    exact ⟨hbyte, beq_iff_eq.mp hchar⟩
  cases a with
  | null => exact scanFrom_word (hletter _ (by decide)) rfl (by decide) seen hrest
  | bool value =>
    cases value with
    | true => exact scanFrom_word (hletter _ (by decide)) rfl (by decide) seen hrest
    | false => exact scanFrom_word (hletter _ (by decide)) rfl (by decide) seen hrest
  | number word =>
    have hnumber : Number.isNumber word = true := ha
    have hword : Atom.ofWord? word = some (.number word) := by
      unfold Atom.ofWord?
      split
      · next h => subst h; exact absurd hnumber (by decide)
      split
      · next h => subst h; exact absurd hnumber (by decide)
      split
      · next h => subst h; exact absurd hnumber (by decide)
      · rfl
    exact scanFrom_word
      (fun c hc => isWordChar_of_isNumberChar (Number.isNumberChar_of_isNumber hnumber c hc))
      hword (Number.ne_nil_of_isNumber hnumber) seen hrest
  | string content =>
    simp only [Atom.spelling, List.cons_append, List.append_assoc, List.nil_append]
    exact scanFrom_string ha seen rest

end Token

/-! ## Values -/

mutual

/-- Values that a reader can produce. -/
def Readable : Json → Prop
  | .atom a => a.Readable
  | .list items => ItemsReadable items
  | .object members => MembersReadable members

def ItemsReadable : List Json → Prop
  | [] => True
  | v :: vs => v.Readable ∧ ItemsReadable vs

def MembersReadable : List (List Piece × Json) → Prop
  | [] => True
  | (k, v) :: ms => (∀ p ∈ k, p.Readable) ∧ v.Readable ∧ MembersReadable ms

end

/-- The text of a token list. -/
def spelled (ts : List Token) : List UInt8 :=
  ts.flatMap Token.spelling

theorem spelled_cons (t : Token) (ts : List Token) :
    spelled (t :: ts) = t.spelling ++ spelled ts := rfl

theorem spelled_append (ts us : List Token) : spelled (ts ++ us) = spelled ts ++ spelled us :=
  List.flatMap_append

theorem endsWord_itemTokens (vs : List Json) (rest : List UInt8) :
    Token.EndsWord (spelled (itemTokens vs) ++ rest) := by
  cases vs <;> exact Token.endsWord_cons (by decide) _

theorem endsWord_memberTokens (ms : List (List Piece × Json)) (rest : List UInt8) :
    Token.EndsWord (spelled (memberTokens ms) ++ rest) := by
  rcases ms with _ | ⟨⟨k, v⟩, ms⟩ <;> exact Token.endsWord_cons (by decide) _

open Token in
/-- A written key and its colon are two tokens. -/
theorem scanFrom_key {k : List Piece} (hk : ∀ p ∈ k, p.Readable) (seen : List Token)
    (rest : List UInt8) :
    scanFrom seen ((Token.atom (.string k)).spelling ++ (Token.colon.spelling ++ rest))
      = scanFrom (.colon :: .atom (.string k) :: seen) rest := by
  show scanFrom seen ((Atom.string k).spelling ++ ascii ':' :: rest) = _
  rw [scanFrom_atom (a := .string k) hk seen (endsWord_cons (by decide) rest)]
  exact scanFrom_mark (by decide) (by decide) _ rest

-- The induction follows the three mutual writers; the text behind a value must end its last word,
-- which the comma or the bracket written next does.
mutual

theorem scanFrom_tokens (v : Json) (hv : v.Readable) (seen : List Token) {rest : List UInt8}
    (hrest : Token.EndsWord rest) :
    Token.scanFrom seen (spelled v.tokens ++ rest)
      = Token.scanFrom (v.tokens.reverse ++ seen) rest := by
  match v with
  | .atom a =>
    rw [tokens, spelled_cons, Token.spelling, List.append_assoc]
    exact Token.scanFrom_atom hv seen hrest
  | .list [] =>
    rw [tokens, spelled_cons, spelled_cons, List.append_assoc, List.append_assoc]
    rw [Token.spelling, Token.spelling, List.singleton_append, List.singleton_append,
      Token.scanFrom_mark (by decide) (t := .listOpen) (by decide),
      Token.scanFrom_mark (by decide) (t := .listClose) (by decide)]
    rfl
  | .list (v :: vs) =>
    obtain ⟨hv, hvs⟩ := hv
    rw [tokens, spelled_cons, spelled_append, List.append_assoc, List.append_assoc]
    rw [Token.spelling, List.singleton_append,
      Token.scanFrom_mark (by decide) (t := .listOpen) (by decide),
      scanFrom_tokens v hv _ (endsWord_itemTokens vs rest), scanFrom_itemTokens vs hvs]
    simp
  | .object [] =>
    rw [tokens, spelled_cons, spelled_cons, List.append_assoc, List.append_assoc]
    rw [Token.spelling, Token.spelling, List.singleton_append, List.singleton_append,
      Token.scanFrom_mark (by decide) (t := .objectOpen) (by decide),
      Token.scanFrom_mark (by decide) (t := .objectClose) (by decide)]
    rfl
  | .object ((k, v) :: ms) =>
    obtain ⟨hk, hv, hms⟩ := hv
    rw [tokens, spelled_cons, spelled_cons, spelled_cons, spelled_append]
    simp only [List.append_assoc]
    rw [Token.spelling.eq_def .objectOpen, List.singleton_append,
      Token.scanFrom_mark (by decide) (t := .objectOpen) (by decide), scanFrom_key hk,
      scanFrom_tokens v hv _ (endsWord_memberTokens ms rest), scanFrom_memberTokens ms hms]
    simp

theorem scanFrom_itemTokens (vs : List Json) (hvs : ItemsReadable vs) (seen : List Token)
    (rest : List UInt8) :
    Token.scanFrom seen (spelled (itemTokens vs) ++ rest)
      = Token.scanFrom ((itemTokens vs).reverse ++ seen) rest := by
  match vs with
  | [] => exact Token.scanFrom_mark (by decide) (by decide) seen rest
  | v :: vs =>
    obtain ⟨hv, hvs⟩ := hvs
    rw [itemTokens, spelled_cons, spelled_append, List.append_assoc, List.append_assoc]
    rw [Token.spelling, List.singleton_append,
      Token.scanFrom_mark (by decide) (t := .comma) (by decide),
      scanFrom_tokens v hv _ (endsWord_itemTokens vs rest), scanFrom_itemTokens vs hvs]
    simp

theorem scanFrom_memberTokens (ms : List (List Piece × Json)) (hms : MembersReadable ms)
    (seen : List Token) (rest : List UInt8) :
    Token.scanFrom seen (spelled (memberTokens ms) ++ rest)
      = Token.scanFrom ((memberTokens ms).reverse ++ seen) rest := by
  match ms with
  | [] => exact Token.scanFrom_mark (by decide) (by decide) seen rest
  | (k, v) :: ms =>
    obtain ⟨hk, hv, hms⟩ := hms
    rw [memberTokens, spelled_cons, spelled_cons, spelled_cons, spelled_append]
    simp only [List.append_assoc]
    rw [Token.spelling.eq_def .comma, List.singleton_append,
      Token.scanFrom_mark (by decide) (t := .comma) (by decide), scanFrom_key hk,
      scanFrom_tokens v hv _ (endsWord_memberTokens ms rest), scanFrom_memberTokens ms hms]
    simp

end

/-- The text of a readable value has the value's tokens and no others. -/
theorem scan_compact {v : Json} (hv : v.Readable) : Token.scan v.compact = some v.tokens := by
  have hend : Token.EndsWord [] := fun b hb => nomatch hb
  have h := scanFrom_tokens v hv [] hend
  rw [List.append_nil, List.append_nil] at h
  rw [Token.scan, show v.compact = spelled v.tokens from rfl, h, Token.scanFrom,
    List.reverse_reverse]

end RasterIrq.Json
