import RasterIrq.Proofs.Json.Cutting

/-!
# The layouts of a value

A value can be laid out in many ways: with blanks anywhere around its tokens, and with every unit of
a string written as itself, behind a backslash, or as an escape. `Laid` says that a text is a layout
of some tokens. The reader takes exactly the layouts of a value: all of them, and nothing else.

Words must be kept apart only from other words. In a value's tokens no word follows a word or a
string, because the reader refuses an atom behind an atom, so a layout needs no blanks at all.

Results:
1. `ofTokens?_eq_some_iff_eq_tokens`: a value is read from its own tokens and no others.
2. `ofText?_eq_some_iff`: a value is read from its layouts and no other text.
3. `ofText?_append_eq_none`: nothing but blanks may stand behind an object.
-/

namespace RasterIrq.Json

/-! ## Strings -/

namespace Piece

/-- The ways to write a unit of a string's content: as itself, behind a backslash, or with the four
digits of an escape. -/
inductive Written : Piece → List UInt8 → Prop
  | plain {b : UInt8} (hquote : b ≠ ascii '"') (hslash : b ≠ ascii '\\') (hcontrol : 0x20 ≤ b) :
      Written (byte b) [b]
  | short {e v : UInt8} (h : ofShort? e = some v) : Written (byte v) [ascii '\\', e]
  | hex {a b c d : UInt8} {u : UInt16} (h : ofHex? a b c d = some u) :
      Written (ofUnit u) [ascii '\\', ascii 'u', a, b, c, d]

/-- A content, written unit by unit. -/
inductive AllWritten : List Piece → List UInt8 → Prop
  | nil : AllWritten [] []
  | cons {p : Piece} {content : List Piece} {text rest : List UInt8} (hp : Written p text)
      (hcontent : AllWritten content rest) : AllWritten (p :: content) (text ++ rest)

theorem scan_written {p : Piece} {text : List UInt8} (h : Written p text) (seen : List Piece)
    (rest : List UInt8) : scan seen (text ++ rest) = scan (p :: seen) rest := by
  cases h with
  | plain hquote hslash hcontrol =>
    rw [List.singleton_append, scan.eq_def]
    simp only [hquote, hslash, UInt8.not_lt.mpr hcontrol, ↓reduceIte]
  | @short e v h =>
    have he : e ≠ ascii 'u' := by
      rintro rfl
      cases h
    exact scan_short he h seen rest
  | hex h =>
    have hquote : ascii '\\' ≠ ascii '"' := by decide
    simp only [List.cons_append, List.nil_append]
    rw [scan]
    simp only [hquote, h, ↓reduceIte]

theorem scan_allWritten {content : List Piece} {text : List UInt8} (h : AllWritten content text)
    (seen : List Piece) (rest : List UInt8) :
    scan seen (text ++ ascii '"' :: rest) = some (seen.reverse ++ content, rest) := by
  induction h generalizing seen with
  | nil =>
    rw [List.nil_append, scan.eq_def]
    simp
  | cons hp _ ih =>
    rw [List.append_assoc, scan_written hp, ih]
    simp

/-- What is read up to a closing quote is a written content. -/
theorem allWritten_of_scan {seen content : List Piece} {s rest : List UInt8}
    (h : scan seen s = some (content, rest)) :
    ∃ new text, content = seen.reverse ++ new ∧ AllWritten new text ∧
      s = text ++ ascii '"' :: rest := by
  -- Every unit that is read goes on top of those seen.
  have hcons : ∀ {p : Piece} {seen content : List Piece} {front s : List UInt8}, Written p front →
      (∃ new text, content = (p :: seen).reverse ++ new ∧ AllWritten new text ∧
        s = text ++ ascii '"' :: rest) →
      ∃ new text, content = seen.reverse ++ new ∧ AllWritten new text ∧
        front ++ s = text ++ ascii '"' :: rest := by
    rintro p seen content front s hp ⟨new, text, rfl, hnew, rfl⟩
    exact ⟨p :: new, front ++ text, by simp, .cons hp hnew, (List.append_assoc ..).symm⟩
  fun_induction scan seen s with
  | case1 => cases h
  | case2 seen s =>
    cases h
    exact ⟨[], [], (List.append_nil _).symm, .nil, rfl⟩
  | case3 => cases h
  | case4 seen h₁ h₂ h₃ h₄ s u hu hquote ih => exact hcons (.hex hu) (ih h)
  | case5 => cases h
  | case6 => cases h
  | case7 seen e s he v hv hquote ih => exact hcons (.short hv) (ih h)
  | case8 => cases h
  | case9 => cases h
  | case10 seen b s hquote hslash hcontrol ih =>
    exact hcons (.plain hquote hslash (UInt8.not_lt.mp hcontrol)) (ih h)

end Piece

/-! ## Tokens -/

namespace Token

/-- The ways to write a token. -/
inductive Written : Token → List UInt8 → Prop
  | mark {b : UInt8} {t : Token} (h : ofMark? b = some t) : Written t [b]
  | word {word : List Char} {a : Atom} (h : Atom.ofWord? word = some a) :
      Written (atom a) (word.map ascii)
  | string {content : List Piece} {text : List UInt8} (h : Piece.AllWritten content text) :
      Written (atom (.string content)) (ascii '"' :: text ++ [ascii '"'])

end Token

/-- A text that has these tokens in order, with any blanks around them. -/
inductive Laid : List Token → List UInt8 → Prop
  | nil : Laid [] []
  | blank {b : UInt8} {ts : List Token} {text : List UInt8} (hb : Token.isBlank b = true)
      (h : Laid ts text) : Laid ts (b :: text)
  | token {t : Token} {ts : List Token} {text rest : List UInt8} (ht : t.Written text)
      (h : Laid ts rest) : Laid (t :: ts) (text ++ rest)

theorem Laid.append {ts us : List Token} {text rest : List UInt8} (h : Laid ts text)
    (hrest : Laid us rest) : Laid (ts ++ us) (text ++ rest) := by
  induction h with
  | nil => exact hrest
  | blank hb _ ih => exact .blank hb ih
  | token ht _ ih =>
    rw [List.append_assoc]
    exact .token ht ih

namespace Token

theorem isWordChar_of_ofWord? {word : List Char} {a : Atom} (h : Atom.ofWord? word = some a) :
    word ≠ [] ∧ ∀ c ∈ word, IsWordChar c := by
  have hletters : ∀ word : List Char,
      (word.all fun c => isWordByte (ascii c) && Char.ofUInt8 (ascii c) == c) = true →
      ∀ c ∈ word, IsWordChar c := by
    intro word h c hc
    obtain ⟨hbyte, hchar⟩ := Bool.and_eq_true_iff.mp (List.all_eq_true.mp h c hc)
    exact ⟨hbyte, beq_iff_eq.mp hchar⟩
  unfold Atom.ofWord? at h
  split_ifs at h with hnull htrue hfalse hnumber
  · exact hnull ▸ ⟨by decide, hletters _ (by decide)⟩
  · exact htrue ▸ ⟨by decide, hletters _ (by decide)⟩
  · exact hfalse ▸ ⟨by decide, hletters _ (by decide)⟩
  · exact ⟨Number.ne_nil_of_isNumber hnumber, fun c hc =>
      isWordChar_of_isNumberChar (Number.isNumberChar_of_isNumber hnumber c hc)⟩

theorem ascii_ofUInt8 (b : UInt8) : ascii (Char.ofUInt8 b) = b := by
  have hall : ∀ n : Fin 256, ascii (Char.ofUInt8 (UInt8.ofNat n.val)) = UInt8.ofNat n.val := by
    decide +kernel
  have hb := hall ⟨b.toNat, b.toNat_lt⟩
  rwa [UInt8.ofNat_toNat] at hb

/-- Marks are neither blanks nor parts of words. -/
theorem not_blank_of_ofMark? {b : UInt8} {t : Token} (h : ofMark? b = some t) :
    isBlank b = false ∧ isWordByte b = false := by
  have hall : ∀ n : Fin 256, (ofMark? (UInt8.ofNat n.val)).isSome = true →
      isBlank (UInt8.ofNat n.val) = false ∧ isWordByte (UInt8.ofNat n.val) = false := by
    decide +kernel
  have hb := hall ⟨b.toNat, b.toNat_lt⟩
  rw [UInt8.ofNat_toNat] at hb
  exact hb (h ▸ rfl)

theorem isWordByte_of_isBlank {b : UInt8} (h : isBlank b = true) : isWordByte b = false := by
  simp only [isBlank, Bool.or_eq_true, beq_iff_eq] at h
  rcases h with ((rfl | rfl) | rfl) | rfl <;> decide

/-- Where no word comes first, a word in front ends. -/
theorem endsWord_of_laid {ts : List Token} {text : List UInt8} (h : Laid ts text)
    (hfirst : ∀ a, ts.head? ≠ some (atom a)) : EndsWord text := by
  cases h with
  | nil => exact fun b hb => nomatch hb
  | blank hb h => exact endsWord_cons (isWordByte_of_isBlank hb) _
  | token ht h =>
    cases ht with
    | mark hmark => exact endsWord_cons (not_blank_of_ofMark? hmark).2 _
    | word _ => exact absurd rfl (hfirst _)
    | string _ => exact absurd rfl (hfirst _)

end Token

/-- Behind a word or a string the reader waits for a mark. -/
theorem Reading.step_atom_atom {r r' : Reading} {a : Atom} (h : step r (.atom a) = some r')
    (b : Atom) : step r' (.atom b) = none := by
  have hdone : ∀ stack v, step (done stack v) (.atom b) = none := by
    intro stack v
    rcases stack with _ | ⟨⟨items⟩ | ⟨members, k⟩, stack⟩ <;> rfl
  cases r with
  | value stack =>
    cases h
    exact hdone _ _
  | item stack =>
    cases h
    exact hdone _ _
  | member stack =>
    cases a <;> cases h
    rfl
  | key stack members =>
    cases a <;> cases h
    rfl
  | colon stack members k => cases h
  | done stack v =>
    rcases stack with _ | ⟨⟨items⟩ | ⟨members, k⟩, stack⟩ <;> cases h

theorem readAll_cons {r r' : Reading} {t : Token} {ts : List Token}
    (h : readAll r (t :: ts) = some r') : ∃ r₁, r.step t = some r₁ ∧ readAll r₁ ts = some r' := by
  rw [readAll, List.foldlM_cons] at h
  exact Option.bind_eq_some_iff.mp h

namespace Token

/-- Tokens that can be read one after the other are scanned back from every layout. -/
theorem scanFrom_laid {ts : List Token} {text : List UInt8} (h : Laid ts text) (seen : List Token)
    {r r' : Reading} (hread : readAll r ts = some r') :
    scanFrom seen text = some (seen.reverse ++ ts) := by
  induction h generalizing seen r with
  | nil => rw [scanFrom, List.append_nil]
  | blank hb _ ih => rw [scanFrom_blank hb, ih seen hread]
  | @token t ts text rest ht hrest ih =>
    obtain ⟨r₁, hstep, hread'⟩ := readAll_cons hread
    have hgo : scanFrom (t :: seen) rest = some (seen.reverse ++ t :: ts) := by
      rw [ih (t :: seen) hread']
      simp
    cases ht with
    | mark hmark =>
      rw [List.singleton_append, scanFrom_mark (not_blank_of_ofMark? hmark).1 hmark, hgo]
    | word hword =>
      have hend : EndsWord rest := by
        refine endsWord_of_laid hrest fun b hb => ?_
        obtain ⟨us, rfl⟩ := List.head?_eq_some_iff.mp hb
        obtain ⟨r₂, hnext, -⟩ := readAll_cons hread'
        rw [Reading.step_atom_atom hstep] at hnext
        cases hnext
      obtain ⟨hne, hchars⟩ := isWordChar_of_ofWord? hword
      rw [scanFrom_word hchars hword hne seen hend, hgo]
    | string hcontent =>
      rw [List.append_assoc, List.singleton_append, List.cons_append,
        scanFrom_quote (Piece.scan_allWritten hcontent [] rest)]
      exact hgo

/-- What is scanned is a layout of the tokens that are found. -/
theorem laid_of_scanFrom {seen ts : List Token} {text : List UInt8}
    (h : scanFrom seen text = some ts) : ∃ found, ts = seen.reverse ++ found ∧ Laid found text := by
  have hcons : ∀ {t : Token} {seen ts : List Token} {text rest : List UInt8}, t.Written text →
      (∃ found, ts = (t :: seen).reverse ++ found ∧ Laid found rest) →
      ∃ found, ts = seen.reverse ++ found ∧ Laid found (text ++ rest) := by
    rintro t seen ts text rest ht ⟨found, rfl, hfound⟩
    exact ⟨t :: found, by simp, .token ht hfound⟩
  fun_induction scanFrom seen text with
  | case1 seen =>
    cases h
    exact ⟨[], (List.append_nil _).symm, .nil⟩
  | case2 seen b s hblank ih =>
    obtain ⟨found, rfl, hfound⟩ := ih h
    exact ⟨found, rfl, .blank hblank hfound⟩
  | case3 seen b s hblank t hmark ih => exact hcons (.mark hmark) (ih h)
  | case4 seen s content rest hscan hblank hmark ih =>
    obtain ⟨new, text, rfl, hwritten, rfl⟩ := Piece.allWritten_of_scan hscan
    have hlaid := hcons (.string hwritten) (ih h)
    rwa [List.append_assoc, List.singleton_append, List.cons_append] at hlaid
  | case5 => cases h
  | case6 seen b s hblank hmark hquote a hword ih =>
    have hback : ((b :: s.takeWhile isWordByte).map Char.ofUInt8).map ascii
        = b :: s.takeWhile isWordByte := by
      rw [List.map_map]
      exact (List.map_congr_left fun c _ => ascii_ofUInt8 c).trans (List.map_id _)
    have hlaid := hcons (.word hword) (ih h)
    rwa [hback, List.cons_append, List.takeWhile_append_dropWhile] at hlaid
  | case7 => cases h

end Token

/-! ## The tokens behind a reader -/

/-- An open list, with a comma behind every item that it holds. -/
def itemsSeen (items : List Json) : List Token :=
  .listOpen :: items.reverse.flatMap fun v => v.tokens ++ [.comma]

/-- An open object, with a comma behind every member that it holds. -/
def membersSeen (members : List (List Piece × Json)) : List Token :=
  .objectOpen :: members.reverse.flatMap fun m =>
    .atom (.string m.1) :: .colon :: (m.2.tokens ++ [.comma])

def Frame.seen : Frame → List Token
  | list items => itemsSeen items
  | object members k => membersSeen members ++ [.atom (.string k), .colon]

/-- The tokens in front of what is still open, the outermost first. -/
def stackSeen (stack : List Frame) : List Token :=
  stack.reverse.flatMap Frame.seen

theorem stackSeen_cons (f : Frame) (stack : List Frame) :
    stackSeen (f :: stack) = stackSeen stack ++ f.seen := by
  simp [stackSeen]

/-- The tokens that brought the reader where it is. -/
def Reading.seen : Reading → List Token
  | value stack => stackSeen stack
  | item stack => stackSeen stack ++ [.listOpen]
  | member stack => stackSeen stack ++ [.objectOpen]
  | key stack members => stackSeen stack ++ membersSeen members
  | colon stack members k => stackSeen stack ++ (membersSeen members ++ [.atom (.string k)])
  | done stack v => stackSeen stack ++ v.tokens

/-- A list's tokens, with its commas behind the items and not in front of them. -/
theorem tokens_list_concat (items : List Json) (v : Json) :
    (list (items.reverse ++ [v])).tokens = itemsSeen items ++ (v.tokens ++ [.listClose]) := by
  have hsplit : ∀ (front : List Json) (v : Json), ∃ w ws, front ++ [v] = w :: ws ∧
      w.tokens ++ itemTokens ws
        = front.flatMap (fun v => v.tokens ++ [.comma]) ++ (v.tokens ++ [.listClose]) := by
    intro front v
    induction front with
    | nil => exact ⟨v, [], rfl, rfl⟩
    | cons x front ih =>
      obtain ⟨w, ws, heq, htokens⟩ := ih
      refine ⟨x, w :: ws, by rw [List.cons_append, heq], ?_⟩
      rw [itemTokens, htokens]
      simp
  obtain ⟨w, ws, heq, htokens⟩ := hsplit items.reverse v
  rw [heq, tokens, htokens]
  rfl

/-- An object's tokens, with its commas behind the members and not in front of them. -/
theorem tokens_object_concat (members : List (List Piece × Json)) (k : List Piece) (v : Json) :
    (object (members.reverse ++ [(k, v)])).tokens
      = membersSeen members ++ (.atom (.string k) :: .colon :: (v.tokens ++ [.objectClose])) := by
  have hsplit : ∀ (front : List (List Piece × Json)) (m : List Piece × Json), ∃ n ns,
      front ++ [m] = n :: ns ∧
      .atom (.string n.1) :: .colon :: (n.2.tokens ++ memberTokens ns)
        = front.flatMap (fun m => .atom (.string m.1) :: .colon :: (m.2.tokens ++ [.comma]))
          ++ .atom (.string m.1) :: .colon :: (m.2.tokens ++ [.objectClose]) := by
    intro front m
    induction front with
    | nil => exact ⟨m, [], rfl, rfl⟩
    | cons x front ih =>
      obtain ⟨n, ns, heq, htokens⟩ := ih
      refine ⟨x, n :: ns, by rw [List.cons_append, heq], ?_⟩
      rw [memberTokens, htokens]
      simp
  obtain ⟨⟨l, w⟩, ns, heq, htokens⟩ := hsplit members.reverse (k, v)
  rw [heq, tokens, htokens]
  rfl

theorem getLast?_tokens_object (members : List (List Piece × Json)) :
    (object members).tokens.getLast? = some .objectClose := by
  rcases List.eq_nil_or_concat members with rfl | ⟨front, ⟨k, v⟩, rfl⟩
  · rfl
  · have htokens := tokens_object_concat front.reverse k v
    rw [List.reverse_reverse] at htokens
    rw [List.concat_eq_append, htokens, List.getLast?_eq_some_iff]
    exact ⟨membersSeen front.reverse ++ .atom (.string k) :: .colon :: v.tokens, by simp⟩

namespace Reading

theorem seen_start {stack : List Frame} {t : Token} {r : Reading} (h : start stack t = some r) :
    r.seen = stackSeen stack ++ [t] := by
  cases t <;> cases h <;> simp [seen, tokens]

/-- A step adds its token to those seen. -/
theorem seen_step {r r' : Reading} {t : Token} (h : step r t = some r') :
    r'.seen = r.seen ++ [t] := by
  cases r with
  | value stack => exact seen_start h
  | item stack =>
    have hopen : stackSeen (.list [] :: stack) = stackSeen stack ++ [.listOpen] := by
      rw [stackSeen_cons]
      rfl
    by_cases ht : t = .listClose
    · cases ht
      cases h
      simp [seen, tokens]
    · have hstart : start (.list [] :: stack) t = some r' := by
        cases t <;> first | exact h | exact absurd rfl ht
      rw [seen_start hstart, hopen]
      rfl
  | member stack =>
    cases t with
    | objectClose =>
      cases h
      simp [seen, tokens]
    | atom a =>
      cases a <;> cases h
      simp [seen, membersSeen]
    | _ => cases h
  | key stack members =>
    cases t with
    | atom a =>
      cases a <;> cases h
      simp [seen]
    | _ => cases h
  | colon stack members k =>
    cases t <;> cases h
    simp [seen, stackSeen_cons, Frame.seen]
  | done stack v =>
    rcases stack with _ | ⟨⟨items⟩ | ⟨members, k⟩, stack⟩
    · cases t <;> cases h
    · cases t <;> cases h
      · simp [seen, stackSeen_cons, Frame.seen, tokens_list_concat]
      · simp [seen, stackSeen_cons, Frame.seen, itemsSeen]
    · cases t <;> cases h
      · simp [seen, stackSeen_cons, Frame.seen, tokens_object_concat]
      · simp [seen, stackSeen_cons, Frame.seen, membersSeen]

end Reading

theorem seen_readAll {r r' : Reading} {ts : List Token} (h : readAll r ts = some r') :
    r'.seen = r.seen ++ ts := by
  induction ts generalizing r with
  | nil =>
    cases h
    rw [List.append_nil]
  | cons t ts ih =>
    obtain ⟨r₁, hstep, hread⟩ := readAll_cons h
    rw [ih hread, Reading.seen_step hstep, List.append_assoc]
    rfl

/-- A value is read from its own tokens and no others. -/
theorem ofTokens?_eq_some_iff_eq_tokens {ts : List Token} {v : Json} :
    ofTokens? ts = some v ↔ ts = v.tokens := by
  constructor
  · intro h
    exact (seen_readAll (ofTokens?_eq_some_iff.mp h)).symm
  · rintro rfl
    exact ofTokens?_tokens v

/-! ## Texts -/

/-- A value is read from its layouts and no other text. -/
theorem ofText?_eq_some_iff {text : List UInt8} {v : Json} :
    ofText? text = some v ↔ Laid v.tokens text := by
  constructor
  · intro h
    obtain ⟨ts, hscan, hread⟩ := Option.bind_eq_some_iff.mp h
    obtain rfl := ofTokens?_eq_some_iff_eq_tokens.mp hread
    obtain ⟨found, hfound, hlaid⟩ := Token.laid_of_scanFrom hscan
    exact hfound ▸ hlaid
  · intro h
    have hread := ofTokens?_eq_some_iff.mp (ofTokens?_tokens v)
    have hscan : Token.scan text = some v.tokens := Token.scanFrom_laid h [] hread
    rw [ofText?, hscan]
    exact ofTokens?_tokens v

/-- A value that is written without blanks is one of its layouts. -/
theorem laid_compact {v : Json} (hv : v.Readable) : Laid v.tokens v.compact :=
  ofText?_eq_some_iff.mp (ofText?_compact hv)

/-- Nothing but blanks may stand behind an object. -/
theorem ofText?_append_eq_none {members : List (List Piece × Json)} {text : List UInt8}
    (h : Laid (object members).tokens text) {more : List UInt8}
    (hmore : ∃ b ∈ more, Token.isBlank b = false) : ofText? (text ++ more) = none := by
  have hwhole : ofTokens? (object members).tokens = some (object members) := ofTokens?_tokens _
  have hlast : ∀ a, (object members).tokens.getLast? ≠ some (.atom a) := by
    intro a ha
    rw [getLast?_tokens_object] at ha
    cases ha
  rw [Option.eq_none_iff_forall_ne_some]
  intro w hw
  obtain ⟨us, hscan, hread⟩ := Option.bind_eq_some_iff.mp hw
  have hfront : Token.scanFrom [] text = some (object members).tokens :=
    Token.scanFrom_laid h [] (ofTokens?_eq_some_iff.mp hwhole)
  rw [Token.scan, Token.scanFrom_append hfront hlast] at hscan
  obtain ⟨found, rfl, hfound⟩ := Token.exists_found hscan
  rw [List.reverse_reverse] at hread
  cases found with
  | nil =>
    obtain ⟨b, hb, hblank⟩ := hmore
    rw [hfound rfl b hb] at hblank
    cases hblank
  | cons t found =>
    rw [ofTokens?_append_eq_none hwhole] at hread
    cases hread

end RasterIrq.Json
