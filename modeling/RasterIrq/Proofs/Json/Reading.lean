import Mathlib.Data.List.TakeWhile
import RasterIrq.Json.Fields
import RasterIrq.Proofs.Json.Scanning

/-!
# Written values read back

The reader goes through a value's tokens and arrives at the value, whatever lists and objects are
still open around it. The readers of values of a known form give back what was written in that
form: numbers in range, text, and named fields.

Results:
1. `ofTokens?_tokens`: a value's tokens read as the value.
2. `ofText?_compact`: a readable value's text reads as the value.
3. `fields?_ofFields`: written fields read back under their names, if no name is repeated.
-/

namespace RasterIrq.Json

/-! ## Values from their tokens -/

/-- The reader after some more tokens. -/
def readAll (r : Reading) (ts : List Token) : Option Reading :=
  ts.foldlM Reading.step r

/-- The first token of a value is read alike at the start of a list and where a value must stand. -/
theorem readAll_item (v : Json) (stack : List Frame) (ts : List Token) :
    readAll (.item stack) (v.tokens ++ ts) = readAll (.value (.list [] :: stack)) (v.tokens ++ ts) := by
  rcases v with a | ⟨_ | ⟨v, vs⟩⟩ | ⟨_ | ⟨⟨k, v⟩, ms⟩⟩ <;> rfl

-- Behind a value the reader stands where the value is finished, with the same lists and objects
-- open as in front of it; an open list or object takes its items or members one at a time.
mutual

theorem readAll_tokens (v : Json) (stack : List Frame) (ts : List Token) :
    readAll (.value stack) (v.tokens ++ ts) = readAll (.done stack v) ts := by
  match v with
  | .atom a => rfl
  | .list [] => rfl
  | .list (v :: vs) =>
    rw [tokens, List.cons_append, List.append_assoc]
    show readAll (.item stack) (v.tokens ++ (itemTokens vs ++ ts)) = _
    rw [readAll_item, readAll_tokens v, readAll_itemTokens vs]
    rfl
  | .object [] => rfl
  | .object ((k, v) :: ms) =>
    rw [tokens, List.cons_append, List.cons_append, List.cons_append, List.append_assoc]
    show readAll (.value (.object [] k :: stack)) (v.tokens ++ (memberTokens ms ++ ts)) = _
    rw [readAll_tokens v, readAll_memberTokens ms]
    rfl

theorem readAll_itemTokens (vs : List Json) (items : List Json) (v : Json) (stack : List Frame)
    (ts : List Token) :
    readAll (.done (.list items :: stack) v) (itemTokens vs ++ ts)
      = readAll (.done stack (.list ((v :: items).reverse ++ vs))) ts := by
  match vs with
  | [] =>
    rw [List.append_nil]
    rfl
  | w :: vs =>
    rw [itemTokens, List.cons_append, List.append_assoc]
    show readAll (.value (.list (v :: items) :: stack)) (w.tokens ++ (itemTokens vs ++ ts)) = _
    rw [readAll_tokens w, readAll_itemTokens vs, List.reverse_cons, List.append_assoc]
    rfl

theorem readAll_memberTokens (ms : List (List Piece × Json)) (members : List (List Piece × Json))
    (k : List Piece) (v : Json) (stack : List Frame) (ts : List Token) :
    readAll (.done (.object members k :: stack) v) (memberTokens ms ++ ts)
      = readAll (.done stack (.object (((k, v) :: members).reverse ++ ms))) ts := by
  match ms with
  | [] =>
    rw [List.append_nil]
    rfl
  | (l, w) :: ms =>
    rw [memberTokens, List.cons_append, List.cons_append, List.cons_append, List.append_assoc]
    show readAll (.value (.object ((k, v) :: members) l :: stack))
      (w.tokens ++ (memberTokens ms ++ ts)) = _
    rw [readAll_tokens w, readAll_memberTokens ms, List.reverse_cons, List.append_assoc]
    rfl

end

theorem ofTokens?_tokens (v : Json) : ofTokens? v.tokens = some v := by
  have h := readAll_tokens v [] []
  rw [List.append_nil] at h
  rw [ofTokens?, show v.tokens.foldlM Reading.step (.value []) = some (.done [] v) from h]

/-- A readable value's text reads as the value. -/
theorem ofText?_compact {v : Json} (hv : v.Readable) : ofText? v.compact = some v := by
  simp only [ofText?, scan_compact hv, Option.bind_eq_bind, Option.bind_some, ofTokens?_tokens]

/-! ## Numbers -/

theorem isDigit_of_mem_ofNat {n : Nat} {c : Char} (h : c ∈ Number.ofNat n) : c.isDigit = true :=
  Nat.isDigit_of_mem_toDigits (by decide) (by decide) h

theorem natural?_ofNat (n : Nat) : Number.natural? (Number.ofNat n) = some n := by
  have hdigits : Number.isDigits (Number.ofNat n) = true := by
    rw [Number.isDigits, Bool.and_eq_true, List.all_eq_true]
    exact ⟨by simp [Number.ofNat], fun c => isDigit_of_mem_ofNat⟩
  rw [Number.natural?, if_pos hdigits, Number.ofNat, Nat.ofDigitChars_ten_toDigits]

/-- Only zero is written with a zero in front. -/
theorem ofNat_head {n : Nat} (hn : 0 < n) : ∃ d ds, Number.ofNat n = d :: ds ∧ d ≠ '0' := by
  have hall : ∀ m : Fin 10, 0 < m.val → m.val.digitChar ≠ '0' := by decide
  induction n using Nat.strongRecOn with
  | _ n ih =>
    by_cases hlt : n < 10
    · exact ⟨n.digitChar, [], Nat.toDigits_of_lt_base hlt, hall ⟨n, hlt⟩ hn⟩
    · obtain ⟨d, ds, heq, hd⟩ := ih (n / 10) (by omega) (by omega)
      refine ⟨d, ds ++ [(n % 10).digitChar], ?_, hd⟩
      rw [Number.ofNat, Nat.toDigits_of_base_le (by decide) (Nat.not_lt.mp hlt),
        show Nat.toDigits 10 (n / 10) = d :: ds from heq]
      rfl

theorem isWhole_ofNat (n : Nat) : Number.isWhole (Number.ofNat n) = true := by
  have hdigit := @isDigit_of_mem_ofNat n
  rcases Nat.eq_zero_or_pos n with rfl | hn
  · decide
  · obtain ⟨d, ds, heq, hd⟩ := ofNat_head hn
    rw [heq] at hdigit ⊢
    cases ds with
    | nil => exact hdigit List.mem_cons_self
    | cons e ds =>
      simp only [Number.isWhole, Bool.and_eq_true, bne_iff_ne, List.all_eq_true]
      exact ⟨⟨hdigit List.mem_cons_self, hd⟩,
        fun c hc => hdigit (List.mem_cons_of_mem d hc)⟩

theorem isNumber_ofNat (n : Nat) : Number.isNumber (Number.ofNat n) = true := by
  have hdigit := @isDigit_of_mem_ofNat n
  have htake : (Number.ofNat n).takeWhile Char.isDigit = Number.ofNat n :=
    List.takeWhile_eq_self_iff.mpr fun c => hdigit
  have hdrop : (Number.ofNat n).dropWhile Char.isDigit = [] :=
    List.dropWhile_eq_nil_iff.mpr fun c => hdigit
  unfold Number.isNumber
  split
  · next cs heq =>
    rw [heq] at hdigit
    exact absurd (hdigit List.mem_cons_self) (by decide)
  · rw [Number.isUnsigned, htake, hdrop, isWhole_ofNat]
    rfl

theorem natBelow?_ofNat {bound n : Nat} (h : n < bound) : (ofNat n).natBelow? bound = some n := by
  simp only [ofNat, natBelow?, natural?_ofNat, if_pos h]

theorem word8?_ofNat (b : UInt8) : (ofNat b.toNat).word8? = some b := by
  rw [word8?, natBelow?_ofNat b.toNat_lt, Option.map_some, UInt8.ofNat_toNat]

theorem word16?_ofNat (w : UInt16) : (ofNat w.toNat).word16? = some w := by
  rw [word16?, natBelow?_ofNat w.toNat_lt, Option.map_some, UInt16.ofNat_toNat]

theorem word64?_ofNat (w : UInt64) : (ofNat w.toNat).word64? = some w := by
  rw [word64?, natBelow?_ofNat w.toNat_lt, Option.map_some, UInt64.ofNat_toNat]

/-! ## Text -/

theorem bytesFrom_bytes (bytes seen : List UInt8) :
    Piece.bytesFrom seen (bytes.map Piece.byte) = some (seen.reverse ++ bytes) := by
  induction bytes generalizing seen with
  | nil => simp [Piece.bytesFrom]
  | cons b bytes ih =>
    rw [List.map_cons, Piece.bytesFrom, ih]
    simp

/-- A text is valid: its bytes read back as the text. -/
theorem fromUTF8?_utf8 (text : String) :
    String.fromUTF8? (Piece.utf8 text).toByteArray = some text := by
  have h : (Piece.utf8 text).toByteArray = text.toByteArray := String.utf8Encode_toList
  rw [h, String.fromUTF8?, dif_pos text.isValidUTF8]
  rfl

theorem Piece.text?_ofText (text : String) : Piece.text? (Piece.ofText text) = some text := by
  rw [Piece.text?, Piece.bytes?, Piece.ofText, bytesFrom_bytes, Option.bind_eq_bind,
    Option.bind_some, List.reverse_nil, List.nil_append, fromUTF8?_utf8]

theorem text?_ofText (text : String) : (ofText text).text? = some text :=
  Piece.text?_ofText text

theorem choice?_ofText (text : String) : (ofText text).choice? = some text :=
  Piece.text?_ofText text

/-- Nothing is read from null, and what was written from what was written. -/
theorem nullable?_ofOption {α : Type} {read : Json → Option α} {write : α → Json}
    (hread : ∀ a, read (write a) = some a) (hnull : ∀ a, write a ≠ .atom .null) (o : Option α) :
    (ofOption write o).nullable? read = some o := by
  cases o with
  | none => rfl
  | some a =>
    simp only [ofOption, nullable?]
    split
    · next h => exact absurd h (hnull a)
    · rw [hread, Option.map_some]

/-! ## Named fields -/

theorem mapM_eq_some {α β : Type} {f : α → Option β} {g : α → β} {l : List α}
    (h : ∀ a ∈ l, f a = some (g a)) : l.mapM f = some (l.map g) := by
  induction l with
  | nil => rfl
  | cons a l ih =>
    rw [List.mapM_cons, h a List.mem_cons_self, ih fun b hb => h b (List.mem_cons_of_mem a hb)]
    rfl

/-- Under a name that no other member has stands the member's value. -/
theorem memberOnce?_of_mem {fields : List (String × Json)} (hnames : (fields.map (·.1)).Nodup)
    {f : String × Json} (hf : f ∈ fields) : memberOnce? fields f.1 = some (some f.2) := by
  have hfilter : fields.filter (fun m => m.1 == f.1) = [f] := by
    induction fields with
    | nil => cases hf
    | cons m fields ih =>
      rw [List.map_cons, List.nodup_cons] at hnames
      rcases List.mem_cons.mp hf with rfl | hf
      · have hrest : fields.filter (fun m => m.1 == f.1) = [] := by
          rw [List.filter_eq_nil_iff]
          intro m hm heq
          exact hnames.1 (beq_iff_eq.mp heq ▸ List.mem_map_of_mem hm)
        rw [List.filter_cons, if_pos (beq_iff_eq.mpr rfl), hrest]
      · have hne : ¬ (m.1 == f.1) = true := fun heq =>
          hnames.1 (beq_iff_eq.mp heq ▸ List.mem_map_of_mem hf)
        rw [List.filter_cons, if_neg hne, ih hnames.2 hf]
  rw [memberOnce?, hfilter]

/-- Written fields read back under their names. -/
theorem fields?_ofFields {fields : List (String × Json)} (hnames : (fields.map (·.1)).Nodup) :
    (ofFields fields).fields? (fields.map (·.1)) = some (fields.map fun f => some f.2) := by
  have hkeys : (fields.map fun f => (Piece.ofText f.1, f.2)).mapM
      (fun m : List Piece × Json => do return (← Piece.text? m.1, m.2)) = some fields := by
    rw [List.mapM_map, mapM_eq_some (g := id), List.map_id]
    intro f hf
    simp [Piece.text?_ofText]
  have hvalues : (fields.map (·.1)).mapM (memberOnce? fields)
      = some (fields.map fun f => some f.2) := by
    rw [List.mapM_map]
    exact mapM_eq_some fun f hf => memberOnce?_of_mem hnames hf
  simp only [ofFields, fields?]
  rw [hkeys]
  exact hvalues

/-! ## Written values are readable -/

theorem readable_list_iff {vs : List Json} : (Json.list vs).Readable ↔ ∀ v ∈ vs, v.Readable := by
  rw [Readable]
  induction vs with
  | nil => simp [ItemsReadable]
  | cons v vs ih => rw [ItemsReadable, ih, List.forall_mem_cons]

theorem readable_atom_iff {a : Atom} : (Json.atom a).Readable ↔ a.Readable := by
  rw [Readable]

theorem readable_ofNat (n : Nat) : (ofNat n).Readable :=
  readable_atom_iff.mpr (isNumber_ofNat n)

theorem readable_ofBool (b : Bool) : (ofBool b).Readable :=
  readable_atom_iff.mpr trivial

theorem readable_pieces (text : String) : ∀ p ∈ Piece.ofText text, p.Readable := by
  intro p hp
  obtain ⟨b, _, rfl⟩ := List.mem_map.mp hp
  exact trivial

theorem readable_ofText (text : String) : (ofText text).Readable :=
  readable_atom_iff.mpr (readable_pieces text)

theorem readable_ofOption {α : Type} {write : α → Json} (h : ∀ a, (write a).Readable)
    (o : Option α) : (ofOption write o).Readable := by
  cases o with
  | none => exact readable_atom_iff.mpr trivial
  | some a => exact h a

theorem readable_ofFields_iff {fields : List (String × Json)} :
    (ofFields fields).Readable ↔ ∀ f ∈ fields, f.2.Readable := by
  rw [ofFields, Readable]
  induction fields with
  | nil => simp [MembersReadable]
  | cons f fields ih =>
    rw [List.map_cons, MembersReadable, ih, List.forall_mem_cons]
    exact and_iff_right (readable_pieces f.1)

end RasterIrq.Json
