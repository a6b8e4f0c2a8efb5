import RasterIrq.Proofs.Json.Reading

/-!
# Texts that are cut off

A list or an object ends with its closing bracket, and nothing but blanks may follow it. So if a
text begins with a bracket and reads as a value, no part of it that leaves out more than blanks at
the end reads as anything. This holds of every text, however it is laid out and whoever wrote it.

Results:
1. `Token.scanFrom_append`: a text that does not end in a word scans on into whatever follows it.
2. `ofTokens?_append_eq_none`: the tokens of a value do not go on.
3. `ofText?_eq_none_of_cut`: a text that begins with a bracket is not read when it is cut off.
-/

namespace RasterIrq.Json

/-! ## Strings -/

/-- A string is read up to its closing quote, whatever comes after it. -/
theorem Piece.scan_append {seen content : List Piece} {s rest : List UInt8}
    (h : scan seen s = some (content, rest)) (more : List UInt8) :
    scan seen (s ++ more) = some (content, rest ++ more) := by
  fun_induction scan seen s with
  | case1 => cases h
  | case2 seen s =>
    cases h
    rw [List.cons_append, scan.eq_def]
    simp
  | case3 => cases h
  | case4 seen h₁ h₂ h₃ h₄ s u hu hquote ih =>
    rw [← ih h]
    simp only [List.cons_append]
    rw [scan]
    simp only [hquote, hu, ↓reduceIte]
  | case5 => cases h
  | case6 => cases h
  | case7 seen e s he v hv hquote ih =>
    rw [← ih h]
    exact scan_short he hv seen (s ++ more)
  | case8 => cases h
  | case9 => cases h
  | case10 seen b s hquote hslash hcontrol ih =>
    rw [← ih h, List.cons_append, scan.eq_def]
    simp only [hquote, hslash, hcontrol, ↓reduceIte]

/-! ## Tokens -/

namespace Token

theorem scanFrom_blank {b : UInt8} (hb : isBlank b = true) (seen : List Token)
    (rest : List UInt8) : scanFrom seen (b :: rest) = scanFrom seen rest := by
  rw [scanFrom]
  simp [hb]

theorem scanFrom_wordByte {b : UInt8} {s : List UInt8} {a : Atom} (hblank : ¬ isBlank b = true)
    (hmark : ofMark? b = none) (hquote : b ≠ ascii '"')
    (h : Atom.ofWord? ((b :: s.takeWhile isWordByte).map Char.ofUInt8) = some a)
    (seen : List Token) :
    scanFrom seen (b :: s) = scanFrom (atom a :: seen) (s.dropWhile isWordByte) := by
  rw [scanFrom]
  simp only [hblank, hmark, hquote, h, ↓reduceIte, Bool.false_eq_true]

/-- What was seen stays in front of what is found, and in a text that is not all blank something is
found. -/
theorem exists_found {seen ts : List Token} {text : List UInt8}
    (h : scanFrom seen text = some ts) :
    ∃ found, ts = seen.reverse ++ found ∧ (found = [] → ∀ b ∈ text, isBlank b = true) := by
  -- Every step but the one over a blank puts a token on top of those seen.
  have hcons : ∀ {t : Token} {seen ts : List Token} {text rest : List UInt8},
      (∃ found, ts = (t :: seen).reverse ++ found ∧
        (found = [] → ∀ b ∈ rest, isBlank b = true)) →
      ∃ found, ts = seen.reverse ++ found ∧ (found = [] → ∀ b ∈ text, isBlank b = true) := by
    rintro t seen ts text rest ⟨found, rfl, -⟩
    exact ⟨t :: found, by simp, fun h => nomatch h⟩
  fun_induction scanFrom seen text with
  | case1 seen =>
    cases h
    exact ⟨[], (List.append_nil _).symm, fun _ => nofun⟩
  | case2 seen b s hblank ih =>
    obtain ⟨found, rfl, hrest⟩ := ih h
    exact ⟨found, rfl, fun hnil => List.forall_mem_cons.mpr ⟨hblank, hrest hnil⟩⟩
  | case3 seen b s hblank t hmark ih => exact hcons (ih h)
  | case4 seen s content rest hscan hblank hmark ih => exact hcons (ih h)
  | case5 => cases h
  | case6 seen b s hblank hmark hquote a hword ih => exact hcons (ih h)
  | case7 => cases h

theorem ofMark?_ne_atom (b : UInt8) (a : Atom) : ofMark? b ≠ some (atom a) := by
  intro h
  unfold ofMark? at h
  repeat' split at h
  all_goals cases h

theorem takeWhile_append_of_stop {p : UInt8 → Bool} {s : List UInt8} (h : s.dropWhile p ≠ [])
    (more : List UInt8) :
    (s ++ more).takeWhile p = s.takeWhile p
      ∧ (s ++ more).dropWhile p = s.dropWhile p ++ more := by
  have hlength : (s.takeWhile p).length ≠ s.length := by
    intro heq
    have hsplit := congrArg List.length (List.takeWhile_append_dropWhile (p := p) (l := s))
    rw [List.length_append] at hsplit
    exact h (List.eq_nil_of_length_eq_zero (by omega))
  rw [List.takeWhile_append, if_neg hlength, List.dropWhile_append]
  exact ⟨rfl, if_neg (by simpa using h)⟩

/-- A text that does not end in a word scans on into whatever follows it. -/
theorem scanFrom_append {seen ts : List Token} {text : List UInt8}
    (h : scanFrom seen text = some ts) (hlast : ∀ a, ts.getLast? ≠ some (atom a))
    (more : List UInt8) : scanFrom seen (text ++ more) = scanFrom ts.reverse more := by
  fun_induction scanFrom seen text with
  | case1 seen =>
    cases h
    rw [List.nil_append, List.reverse_reverse]
  | case2 seen b s hblank ih => rw [List.cons_append, scanFrom_blank hblank, ih h]
  | case3 seen b s hblank t hmark ih =>
    rw [List.cons_append, scanFrom_mark (Bool.not_eq_true _ ▸ hblank) hmark, ih h]
  | case4 seen s content rest hscan hblank hmark ih =>
    rw [List.cons_append, scanFrom_quote (Piece.scan_append hscan more), ih h]
  | case5 => cases h
  | case6 seen b s hblank hmark hquote a hword ih =>
    -- The word is over within the text; else it would be the last token.
    have hstop : s.dropWhile isWordByte ≠ [] := by
      intro hend
      rw [hend, scanFrom] at h
      cases h
      exact hlast a (by simp)
    obtain ⟨htake, hdrop⟩ := takeWhile_append_of_stop hstop more
    rw [List.cons_append, scanFrom_wordByte hblank hmark hquote (htake ▸ hword), hdrop, ih h]
  | case7 => cases h

end Token

/-! ## Values -/

namespace Reading

/-- No token brings the reader back to its start. -/
theorem step_ne_value_nil (r : Reading) (t : Token) : step r t ≠ some (value []) := by
  intro h
  cases r with
  | value stack => cases t <;> cases h
  | item stack => cases t <;> cases h
  | member stack =>
    cases t with
    | atom a => cases a <;> cases h
    | _ => cases h
  | key stack members =>
    cases t with
    | atom a => cases a <;> cases h
    | _ => cases h
  | colon stack members k => cases t <;> cases h
  | done stack v =>
    rcases stack with _ | ⟨⟨items⟩ | ⟨members, k⟩, stack⟩ <;> cases t <;> cases h

/-- A word or a string finishes the whole value only at the start: everywhere else it belongs to a
list or an object that is still open. -/
theorem eq_value_of_step_atom {r : Reading} {a : Atom} {v : Json}
    (h : step r (.atom a) = some (done [] v)) : r = value [] := by
  cases r with
  | value stack =>
    cases h
    rfl
  | item stack => cases h
  | member stack => cases a <;> cases h
  | key stack members => cases a <;> cases h
  | colon stack members k => cases h
  | done stack w =>
    rcases stack with _ | ⟨⟨items⟩ | ⟨members, k⟩, stack⟩ <;> cases h

end Reading

theorem ofTokens?_eq_some_iff {ts : List Token} {v : Json} :
    ofTokens? ts = some v ↔ readAll (.value []) ts = some (.done [] v) := by
  unfold ofTokens? readAll
  split
  · next w h => rw [h]; simp
  · next h =>
    constructor
    · intro h'
      cases h'
    · intro h'
      exact absurd h' (h v)

theorem readAll_append (r : Reading) (ts us : List Token) :
    readAll r (ts ++ us) = (readAll r ts).bind fun r => readAll r us := by
  rw [readAll, List.foldlM_append]
  rfl

/-- The tokens of a value do not go on. -/
theorem ofTokens?_append_eq_none {ts : List Token} {v : Json} (h : ofTokens? ts = some v)
    (t : Token) (us : List Token) : ofTokens? (ts ++ t :: us) = none := by
  rw [Option.eq_none_iff_forall_ne_some]
  intro w hw
  rw [ofTokens?_eq_some_iff] at h hw
  rw [readAll_append, h] at hw
  cases hw

/-- Tokens that end in a word or a string are a value only if there are no others. -/
theorem eq_nil_of_ofTokens?_concat_atom {ts : List Token} {a : Atom} {v : Json}
    (h : ofTokens? (ts ++ [.atom a]) = some v) : ts = [] := by
  rw [ofTokens?_eq_some_iff, readAll_append] at h
  obtain ⟨r, hr, hlast⟩ := Option.bind_eq_some_iff.mp h
  have hstep : Reading.step r (.atom a) = some (.done [] v) := by simpa [readAll] using hlast
  rcases List.eq_nil_or_concat ts with hnil | ⟨us, t, rfl⟩
  · exact hnil
  · rw [Reading.eq_value_of_step_atom hstep, List.concat_eq_append, readAll_append] at hr
    obtain ⟨r', -, hr'⟩ := Option.bind_eq_some_iff.mp hr
    have hback : Reading.step r' t = some (.value []) := by simpa [readAll] using hr'
    exact absurd hback (Reading.step_ne_value_nil r' t)

/-! ## Texts -/

/-- A text that begins with a bracket and reads as a value is no longer read when more than blanks
are cut off at its end. -/
theorem ofText?_eq_none_of_cut {b : UInt8} {t : Token} (hblank : Token.isBlank b = false)
    (hmark : Token.ofMark? b = some t) {text rest : List UInt8}
    (hrest : ∃ c ∈ rest, Token.isBlank c = false) {v : Json}
    (h : ofText? (b :: text ++ rest) = some v) : ofText? (b :: text) = none := by
  rw [Option.eq_none_iff_forall_ne_some]
  intro w hw
  obtain ⟨ts, hscan, hread⟩ := Option.bind_eq_some_iff.mp hw
  obtain ⟨us, hscan', hread'⟩ := Option.bind_eq_some_iff.mp h
  -- The bracket stands in front, so the part is no single word and does not end in one.
  have hlast : ∀ a, ts.getLast? ≠ some (.atom a) := by
    intro a ha
    obtain ⟨init, rfl⟩ := List.getLast?_eq_some_iff.mp ha
    obtain rfl := eq_nil_of_ofTokens?_concat_atom hread
    rw [Token.scan, Token.scanFrom_mark hblank hmark] at hscan
    obtain ⟨found, hfound, -⟩ := Token.exists_found hscan
    cases hfound
    exact Token.ofMark?_ne_atom b a hmark
  rw [Token.scan, Token.scanFrom_append hscan hlast] at hscan'
  obtain ⟨found, rfl, hfound⟩ := Token.exists_found hscan'
  rw [List.reverse_reverse] at hread'
  cases found with
  | nil =>
    obtain ⟨c, hc, hcblank⟩ := hrest
    rw [hfound rfl c hc] at hcblank
    cases hcblank
  | cons u found =>
    rw [ofTokens?_append_eq_none hread] at hread'
    cases hread'

end RasterIrq.Json
