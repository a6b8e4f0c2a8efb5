import RasterIrq.Proofs.Json.Reading

/-!
# Spellings of a text

Between quotes a character is written by its own bytes, by one escaped unit, or by two of them if it
lies beyond the units. `Piece.Spells` says that a content is one of the spellings of a text, and a
content reads as a text if and only if it is. Bytes and escapes cannot share a character: an escape
stands for whole characters, and the bytes that go on a character never begin one.

Result: `Piece.text?_eq_some_iff`, the contents that read as a text.
-/

namespace RasterIrq.Json.Piece

/-- The ways to write characters between quotes: by their own bytes, as one escaped unit, or as two
if they lie beyond the units. -/
inductive Spells : List Piece → List Char → Prop
  | nil : Spells [] []
  | bytes {content : List Piece} {cs : List Char} (c : Char) (h : Spells content cs) :
      Spells ((String.utf8EncodeChar c).map byte ++ content) (c :: cs)
  | unit {u : UInt16} {content : List Piece} {cs : List Char} (hleading : isLeading u = false)
      (htrailing : isTrailing u = false) (h : Spells content cs) :
      Spells (unit u :: content) (Char.ofNat u.toNat :: cs)
  | pair {u v : UInt16} {content : List Piece} {cs : List Char} (hleading : isLeading u = true)
      (htrailing : isTrailing v = true) (h : Spells content cs) :
      Spells (.unit u :: .unit v :: content) (ofPair u v :: cs)

/-! ## The bytes of a content -/

/-- The bytes that a content stands for, piece by piece. -/
inductive Emits : List Piece → List UInt8 → Prop
  | nil : Emits [] []
  | byte {content : List Piece} {bytes : List UInt8} (b : UInt8) (h : Emits content bytes) :
      Emits (byte b :: content) (b :: bytes)
  | unit {u : UInt16} {content : List Piece} {bytes : List UInt8} (hleading : isLeading u = false)
      (htrailing : isTrailing u = false) (h : Emits content bytes) :
      Emits (unit u :: content) (String.utf8EncodeChar (Char.ofNat u.toNat) ++ bytes)
  | pair {u v : UInt16} {content : List Piece} {bytes : List UInt8} (hleading : isLeading u = true)
      (htrailing : isTrailing v = true) (h : Emits content bytes) :
      Emits (.unit u :: .unit v :: content) (String.utf8EncodeChar (ofPair u v) ++ bytes)

theorem bytesFrom_emits {content : List Piece} {bytes : List UInt8} (h : Emits content bytes)
    (seen : List UInt8) : bytesFrom seen content = some (seen.reverse ++ bytes) := by
  induction h generalizing seen with
  | nil => rw [bytesFrom, List.append_nil]
  | byte b _ ih =>
    rw [bytesFrom, ih]
    simp
  | unit hleading htrailing _ ih =>
    rw [bytesFrom.eq_def]
    simp [hleading, htrailing, ih]
  | pair hleading htrailing _ ih =>
    rw [bytesFrom]
    simp [hleading, htrailing, ih]

theorem emits_of_bytesFrom {seen found : List UInt8} {content : List Piece}
    (h : bytesFrom seen content = some found) :
    ∃ bytes, found = seen.reverse ++ bytes ∧ Emits content bytes := by
  fun_induction bytesFrom seen content with
  | case1 seen =>
    cases h
    exact ⟨[], (List.append_nil _).symm, .nil⟩
  | case2 seen b content ih =>
    obtain ⟨bytes, rfl, hbytes⟩ := ih h
    exact ⟨b :: bytes, by simp, .byte b hbytes⟩
  | case3 seen u hleading v content htrailing ih =>
    obtain ⟨bytes, hfound, hbytes⟩ := ih h
    refine ⟨_, hfound.trans ?_, .pair hleading htrailing hbytes⟩
    rw [List.reverse_append, List.reverse_reverse, List.append_assoc]
  | case4 => cases h
  | case5 => cases h
  | case6 => cases h
  | case7 seen u content hleading htrailing ih =>
    obtain ⟨bytes, hfound, hbytes⟩ := ih h
    refine ⟨_, hfound.trans ?_, .unit (Bool.eq_false_iff.mpr hleading)
      (Bool.eq_false_iff.mpr htrailing) hbytes⟩
    rw [List.reverse_append, List.reverse_reverse, List.append_assoc]

theorem bytes?_eq_some_iff {content : List Piece} {bytes : List UInt8} :
    bytes? content = some bytes ↔ Emits content bytes := by
  constructor
  · intro h
    obtain ⟨_, rfl, hbytes⟩ := emits_of_bytesFrom h
    exact hbytes
  · exact fun h => bytesFrom_emits h []

/-! ## The bytes of a character -/

/-- A character's bytes at the front of others say which character it is. -/
theorem utf8EncodeChar_append_inj {c d : Char} {rest rest' : List UInt8}
    (h : String.utf8EncodeChar c ++ rest = String.utf8EncodeChar d ++ rest') :
    c = d ∧ rest = rest' := by
  have hdecode : ∀ (c : Char) (rest : List UInt8),
      (String.utf8EncodeChar c ++ rest).toByteArray.utf8DecodeChar? 0 = some c := by
    intro c rest
    rw [List.toByteArray_append]
    exact ByteArray.utf8DecodeChar?_utf8EncodeChar_append
  have hchar : c = d := Option.some.inj ((hdecode c rest).symm.trans (h ▸ hdecode d rest'))
  subst hchar
  exact ⟨rfl, List.append_cancel_left h⟩

/-- The first byte of a character begins one, and the others do not. -/
theorem exists_utf8EncodeChar_eq (c : Char) :
    ∃ first others, String.utf8EncodeChar c = first :: others ∧ first.IsUTF8FirstByte ∧
      ∀ b ∈ others, ¬ b.IsUTF8FirstByte := by
  obtain ⟨first, others, heq⟩ := List.exists_cons_of_ne_nil (String.utf8EncodeChar_ne_nil (c := c))
  have hfirst : ∀ (i : Nat) (hi : i < (String.utf8EncodeChar c).length),
      (String.utf8EncodeChar c)[i].IsUTF8FirstByte ↔ i = 0 :=
    fun _ _ => UInt8.isUTF8FirstByte_getElem_utf8EncodeChar
  simp only [heq] at hfirst
  refine ⟨first, others, heq, (hfirst 0 (by simp)).mpr rfl, fun b hb => ?_⟩
  obtain ⟨i, hi, rfl⟩ := List.getElem_of_mem hb
  intro hbegins
  exact absurd ((hfirst (i + 1) (by simpa using hi)).mp hbegins) (by omega)

/-- Bytes that begin no character do not come from escapes. -/
theorem Emits.of_others {others rest : List UInt8} (hothers : ∀ b ∈ others, ¬ b.IsUTF8FirstByte)
    {content : List Piece} (h : Emits content (others ++ rest)) :
    ∃ content', content = others.map Piece.byte ++ content' ∧ Emits content' rest := by
  induction others generalizing content with
  | nil => exact ⟨content, rfl, h⟩
  | cons b others ih =>
    obtain ⟨hb, hothers⟩ := List.forall_mem_cons.mp hothers
    have hescape : ∀ (c : Char) (bytes : List UInt8),
        b :: others ++ rest ≠ String.utf8EncodeChar c ++ bytes := by
      intro c bytes heq
      obtain ⟨first, _, hc, hfirst, -⟩ := exists_utf8EncodeChar_eq c
      rw [hc] at heq
      exact hb ((List.cons.inj heq).1 ▸ hfirst)
    generalize hbytes : b :: others ++ rest = bytes at h
    cases h with
    | nil => cases hbytes
    | byte b' h =>
      cases hbytes
      obtain ⟨content', rfl, hcontent⟩ := ih hothers h
      exact ⟨content', rfl, hcontent⟩
    | unit _ _ h => exact absurd hbytes (hescape _ _)
    | pair _ _ h => exact absurd hbytes (hescape _ _)

/-! ## Contents and texts -/

theorem Emits.append_bytes {content : List Piece} {rest : List UInt8} (h : Emits content rest)
    (bytes : List UInt8) : Emits (bytes.map Piece.byte ++ content) (bytes ++ rest) := by
  induction bytes with
  | nil => exact h
  | cons b bytes ih => exact .byte b ih

/-- The spellings of some characters are the contents that stand for their bytes. -/
theorem spells_iff_emits {content : List Piece} {cs : List Char} :
    Spells content cs ↔ Emits content (cs.flatMap String.utf8EncodeChar) := by
  constructor
  · intro h
    induction h with
    | nil => exact .nil
    | bytes c _ ih => exact ih.append_bytes _
    | unit hleading htrailing _ ih => exact .unit hleading htrailing ih
    | pair hleading htrailing _ ih => exact .pair hleading htrailing ih
  · intro h
    induction cs generalizing content with
    | nil =>
      rw [List.flatMap_nil] at h
      generalize hbytes : [] = bytes at h
      cases h with
      | nil => exact .nil
      | byte => cases hbytes
      | unit => exact absurd (List.nil_eq_append_iff.mp hbytes).1 String.utf8EncodeChar_ne_nil
      | pair => exact absurd (List.nil_eq_append_iff.mp hbytes).1 String.utf8EncodeChar_ne_nil
    | cons c cs ih =>
      rw [List.flatMap_cons] at h
      generalize hbytes : String.utf8EncodeChar c ++ cs.flatMap String.utf8EncodeChar = bytes at h
      cases h with
      | nil => exact absurd (List.append_eq_nil_iff.mp hbytes).1 String.utf8EncodeChar_ne_nil
      | byte b h =>
        -- The whole character is written by its bytes.
        obtain ⟨first, others, hc, -, hothers⟩ := exists_utf8EncodeChar_eq c
        rw [hc] at hbytes
        obtain ⟨rfl, rfl⟩ := List.cons.inj hbytes
        obtain ⟨content', rfl, hcontent⟩ := h.of_others hothers
        have hspells := Spells.bytes c (ih hcontent)
        rwa [hc] at hspells
      | unit hleading htrailing h =>
        obtain ⟨hc, hrest⟩ := utf8EncodeChar_append_inj hbytes
        exact hc ▸ .unit hleading htrailing (ih (hrest ▸ h))
      | pair hleading htrailing h =>
        obtain ⟨hc, hrest⟩ := utf8EncodeChar_append_inj hbytes
        exact hc ▸ .pair hleading htrailing (ih (hrest ▸ h))

theorem fromUTF8?_eq_some_iff {bytes : List UInt8} {text : String} :
    String.fromUTF8? bytes.toByteArray = some text ↔ bytes = utf8 text := by
  constructor
  · intro h
    unfold String.fromUTF8? at h
    split_ifs at h with hvalid
    have hbytes : text.toByteArray = bytes.toByteArray :=
      (congrArg String.toByteArray (Option.some.inj h)).symm
    have hwhole : (utf8 text).toByteArray = bytes.toByteArray :=
      String.utf8Encode_toList.trans hbytes
    have hdata := congrArg ByteArray.data hwhole
    rw [List.data_toByteArray, List.data_toByteArray] at hdata
    exact (congrArg Array.toList hdata).symm
  · rintro rfl
    exact fromUTF8?_utf8 text

/-- A content reads as a text if and only if it is one of the text's spellings. -/
theorem text?_eq_some_iff {content : List Piece} {text : String} :
    text? content = some text ↔ Spells content text.toList := by
  rw [spells_iff_emits, ← bytes?_eq_some_iff, text?, Option.bind_eq_bind, Option.bind_eq_some_iff]
  simp only [fromUTF8?_eq_some_iff]
  constructor
  · rintro ⟨bytes, hbytes, rfl⟩
    exact hbytes
  · exact fun h => ⟨_, h, rfl⟩

end RasterIrq.Json.Piece
