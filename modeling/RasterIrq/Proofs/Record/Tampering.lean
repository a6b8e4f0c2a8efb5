import RasterIrq.Proofs.Record.RoundTrip

/-!
# Tampered records

Bytes that decode are a payload in its frame, and no other bytes around that payload decode. So a
change of any kind to a record that decodes, as long as it keeps the length, is found where it
comes first: in the magic, in the version, in the digest, or in the payload. A change to the payload
goes unnoticed only if the digest in front of it is the one of the new payload.

Results:
1. `Record.decode_eq_ok_iff`: what decodes is a framed payload that reads as a record.
2. `Record.decode_tampered`: what a changed record decodes to.
-/

namespace RasterIrq.Record

/-! ## Bytes that decode -/

/-- Bytes that are long enough for a header are checked from front to back. -/
theorem decode_of_long {bytes : List UInt8} (h : 25 ≤ bytes.length) :
    decode bytes
      = if bytes.take 4 ≠ magic then .error .badMagic
        else if bytes.getD 4 0 ≠ version then .error (.unsupportedVersion (bytes.getD 4 0))
        else if Sha1.digest (bytes.drop 25) ≠ (bytes.drop 5).take 20 then .error .checksumMismatch
        else
          match ofPayload? (bytes.drop 25) with
          | some r => .ok r
          | none => .error .malformed := by
  unfold decode headerSize
  split_ifs <;> first | rfl | omega

theorem long_of_decode {bytes : List UInt8} {r : Record} (h : decode bytes = .ok r) :
    25 ≤ bytes.length := by
  by_contra hshort
  have hheader : bytes.length < headerSize := Nat.not_le.mp hshort
  unfold decode at h
  rw [if_pos hheader] at h
  split_ifs at h

theorem header_framed (payload : List UInt8) :
    (framed payload).take 4 = magic ∧ (framed payload)[4]? = some version ∧
      ((framed payload).drop 5).take 20 = Sha1.digest payload ∧
      (framed payload).drop 25 = payload := by
  have hlength := Sha1.length_digest payload
  exact ⟨rfl, rfl, by simp [framed, magic, hlength], by simp [framed, magic, hlength]⟩

/-- Bytes that decode are a payload behind magic, version and its digest. -/
theorem decode_eq_ok_iff {bytes : List UInt8} {r : Record} :
    decode bytes = .ok r ↔ ∃ payload, bytes = framed payload ∧ ofPayload? payload = some r := by
  constructor
  · intro h
    have hlong := long_of_decode h
    rw [decode_of_long hlong] at h
    split_ifs at h with hmagic hversion hdigest
    have hread : ofPayload? (bytes.drop 25) = some r := by
      split at h
      · next heq =>
        cases h
        exact heq
      · cases h
    rw [not_not] at hmagic hversion hdigest
    have hfront : bytes.drop 4 = version :: bytes.drop 5 := by
      rw [List.drop_eq_getElem_cons (by omega), ← hversion, List.getD_eq_getElem?_getD,
        List.getElem?_eq_getElem (by omega), Option.getD_some]
    refine ⟨bytes.drop 25, ?_, hread⟩
    calc bytes = bytes.take 4 ++ bytes.drop 4 := (List.take_append_drop 4 bytes).symm
      _ = magic ++ version :: ((bytes.drop 5).take 20 ++ (bytes.drop 5).drop 20) := by
        rw [hmagic, hfront, List.take_append_drop]
      _ = framed (bytes.drop 25) := by rw [← hdigest, List.drop_drop, framed]
  · rintro ⟨payload, rfl, hread⟩
    rw [decode_framed, hread]

/-! ## Changed bytes -/

/-- Two strings of bytes differ somewhere in a range of positions. -/
def DifferIn (a b : List UInt8) (first stop : Nat) : Prop :=
  ∃ i, first ≤ i ∧ i < stop ∧ a[i]? ≠ b[i]?

/-- Where two strings do not differ, their slices are equal. -/
theorem slice_eq_of_not_differIn {a b : List UInt8} (first count : Nat)
    (h : ¬ DifferIn a b first (first + count)) :
    (a.drop first).take count = (b.drop first).take count := by
  apply List.ext_getElem?
  intro i
  rw [List.getElem?_take, List.getElem?_take]
  split_ifs with hi
  · rw [List.getElem?_drop, List.getElem?_drop]
    by_contra hne
    exact h ⟨first + i, by omega, by omega, hne⟩
  · rfl

/-- Two strings of one length that do not differ behind a position are equal from there on. -/
theorem drop_eq_of_not_differIn {a b : List UInt8} (hlength : b.length = a.length) {first : Nat}
    (h : ¬ DifferIn a b first a.length) : a.drop first = b.drop first := by
  apply List.ext_getElem?
  intro i
  rw [List.getElem?_drop, List.getElem?_drop]
  by_cases hi : first + i < a.length
  · by_contra hne
    exact h ⟨first + i, by omega, hi, hne⟩
  · rw [List.getElem?_eq_none (by omega), List.getElem?_eq_none (by omega)]

/-- Where two strings differ, so do their slices. -/
theorem slice_ne_of_differIn {a b : List UInt8} (first count : Nat)
    (h : DifferIn a b first (first + count)) :
    (a.drop first).take count ≠ (b.drop first).take count := by
  obtain ⟨i, hfirst, hstop, hne⟩ := h
  intro heq
  have hcell := congrArg (·[i - first]?) heq
  simp only [List.getElem?_take, List.getElem?_drop, if_pos (show i - first < count by omega),
    Nat.add_sub_cancel' hfirst] at hcell
  exact hne hcell

/-- A change to one byte is a difference at its position and nowhere else. -/
theorem differIn_set {a : List UInt8} {i : Nat} {value : UInt8} (hi : i < a.length)
    (hvalue : a[i]? ≠ some value) (first stop : Nat) :
    DifferIn a (a.set i value) first stop ↔ first ≤ i ∧ i < stop := by
  constructor
  · rintro ⟨j, hfirst, hstop, hne⟩
    by_cases hij : i = j
    · exact ⟨hij ▸ hfirst, hij ▸ hstop⟩
    · exact absurd (List.getElem?_set_ne hij).symm hne
  · rintro ⟨hfirst, hstop⟩
    exact ⟨i, hfirst, hstop, by rwa [List.getElem?_set_self hi]⟩

/-- Bytes that decode begin with the magic, the version and the digest of the rest. When they are
changed and their length is not, then of the places where they differ the first one counts: in the
magic, in the version, and then in digest or payload, unless the digest is that of the new
payload. -/
theorem decode_tampered {bytes changed : List UInt8} {r : Record} (h : decode bytes = .ok r)
    (hlength : changed.length = bytes.length) :
    (bytes.take 4 = [0x41, 0x31, 0x32, 0x53] ∧ bytes[4]? = some 1 ∧
      (bytes.drop 5).take 20 = Sha1.digest (bytes.drop 25)) ∧
    (DifferIn bytes changed 0 4 → decode changed = .error .badMagic) ∧
    (¬ DifferIn bytes changed 0 4 → DifferIn bytes changed 4 5 →
      ∃ new, changed[4]? = some new ∧ decode changed = .error (.unsupportedVersion new)) ∧
    (¬ DifferIn bytes changed 0 5 → DifferIn bytes changed 5 25 →
      ¬ DifferIn bytes changed 25 bytes.length → decode changed = .error .checksumMismatch) ∧
    (¬ DifferIn bytes changed 0 5 → DifferIn bytes changed 25 bytes.length →
      Sha1.digest (changed.drop 25) ≠ (changed.drop 5).take 20 →
      decode changed = .error .checksumMismatch) := by
  obtain ⟨payload, hframed, -⟩ := decode_eq_ok_iff.mp h
  obtain ⟨hmagic, hversion, hdigest, hpayload⟩ := hframed ▸ header_framed payload
  have hlong := long_of_decode h
  have hchecks := decode_of_long (hlength ▸ hlong : 25 ≤ changed.length)
  have hsameMagic : ¬ DifferIn bytes changed 0 4 → changed.take 4 = magic := fun hsame =>
    (slice_eq_of_not_differIn 0 4 hsame).symm.trans hmagic
  have hsameVersion : ¬ DifferIn bytes changed 4 5 → changed.getD 4 0 = version := by
    intro hsame
    have hcell : changed[4]? = bytes[4]? := by
      by_contra hne
      exact hsame ⟨4, by decide, by decide, fun heq => hne heq.symm⟩
    rw [List.getD_eq_getElem?_getD, hcell, hversion, Option.getD_some]
  -- Behind an unchanged front the digests are compared.
  have hmismatch : ¬ DifferIn bytes changed 0 5 →
      Sha1.digest (changed.drop 25) ≠ (changed.drop 5).take 20 →
      decode changed = .error .checksumMismatch := by
    intro hsame hne
    have hmagic' := hsameMagic fun ⟨i, hfirst, hstop, hi⟩ => hsame ⟨i, hfirst, by omega, hi⟩
    have hversion' := hsameVersion fun ⟨i, hfirst, hstop, hi⟩ => hsame ⟨i, by omega, hstop, hi⟩
    rw [hchecks, if_neg (not_not.mpr hmagic'), if_neg (not_not.mpr hversion'), if_pos hne]
  refine ⟨⟨hmagic, hversion, hpayload ▸ hdigest⟩, ?_, ?_, ?_, fun hsame _ => hmismatch hsame⟩
  · intro hdiffer
    have hne : changed.take 4 ≠ magic := fun heq =>
      slice_ne_of_differIn 0 4 hdiffer (hmagic.trans heq.symm)
    rw [hchecks, if_pos hne]
  · intro hsame ⟨i, hfirst, hstop, hne⟩
    obtain rfl : i = 4 := by omega
    have hget : changed[4]? = some (changed.getD 4 0) := by
      rw [List.getD_eq_getElem?_getD, List.getElem?_eq_getElem (by omega), Option.getD_some]
    have hother : changed.getD 4 0 ≠ version := fun heq =>
      hne (hversion.trans (heq ▸ hget.symm))
    refine ⟨changed.getD 4 0, hget, ?_⟩
    rw [hchecks, if_neg (not_not.mpr (hsameMagic hsame)), if_pos hother]
  · intro hsame hdiffer hrest
    refine hmismatch hsame ?_
    rw [← drop_eq_of_not_differIn hlength hrest, hpayload, ← hdigest]
    exact slice_ne_of_differIn 5 20 hdiffer

/-- A record with another magic, another version, another digest and another payload. -/
theorem decode_tampered_bytes :
    let r : Record := ⟨"MMC3", {}, {}, [], [], .vertical⟩
    let digit := r.encode.getD 24 0
    decode r.encode = .ok r ∧ decode (r.encode.set 0 0) = .error .badMagic ∧
      decode (r.encode.set 4 9) = .error (.unsupportedVersion 9) ∧
      decode (r.encode.set 24 (digit + 1)) = .error .checksumMismatch ∧
      (Sha1.digest ((r.encode.set 25 0).drop 25) ≠ ((r.encode.set 25 0).drop 5).take 20 →
        decode (r.encode.set 25 0) = .error .checksumMismatch) := by
  intro r digit
  have hdecode : decode r.encode = .ok r := decode_encode r
  have hlong : 25 < r.encode.length := by
    obtain ⟨inner, hinner⟩ : ∃ inner, r.payload = 0x7b :: inner := ⟨_, rfl⟩
    simp [encode, magic, hinner, Sha1.length_digest]
    omega
  have hdigit : r.encode[24]? ≠ some (digit + 1) := by
    have hsucc : digit ≠ digit + 1 := by simp
    have hget : r.encode[24]? = some digit := by
      rw [show digit = r.encode[24]?.getD 0 from List.getD_eq_getElem?_getD,
        List.getElem?_eq_getElem (by omega), Option.getD_some]
    rw [hget]
    exact fun heq => hsucc (Option.some.inj heq)
  have hbrace : r.encode[25]? ≠ some 0 := by
    have hget : r.encode[25]? = (r.encode.drop 25)[0]? := by rw [List.getElem?_drop]
    have hfirst : r.payload[0]? = some 0x7B := rfl
    rw [hget, encode_eq_framed, (header_framed r.payload).2.2.2, hfirst]
    decide
  have hset : ∀ i value, (r.encode.set i value).length = r.encode.length :=
    fun _ _ => List.length_set
  obtain ⟨-, hmagic, -⟩ := decode_tampered hdecode (hset 0 0)
  obtain ⟨-, -, hversion, -⟩ := decode_tampered hdecode (hset 4 9)
  obtain ⟨-, -, -, hdigest, -⟩ := decode_tampered hdecode (hset 24 (digit + 1))
  obtain ⟨-, -, -, -, hpayload⟩ := decode_tampered hdecode (hset 25 0)
  have hletter : r.encode[0]? ≠ some 0 := by
    rw [show r.encode[0]? = some 0x41 from rfl]
    decide
  have hnumber : r.encode[4]? ≠ some 9 := by
    rw [show r.encode[4]? = some 1 from rfl]
    decide
  have hat0 := differIn_set (by omega) hletter
  have hat4 := differIn_set (by omega) hnumber
  have hat24 := differIn_set (by omega) hdigit
  have hat25 := differIn_set (by omega) hbrace
  refine ⟨hdecode, hmagic ((hat0 0 4).mpr (by decide)), ?_, ?_, ?_⟩
  · obtain ⟨new, hnew, herror⟩ := hversion (by rw [hat4]; decide) ((hat4 4 5).mpr (by decide))
    rw [List.getElem?_set_self (by omega)] at hnew
    cases hnew
    exact herror
  · refine hdigest ?_ ((hat24 5 25).mpr (by decide)) ?_
    · rw [hat24]
      decide
    · rw [hat24]
      omega
  · refine hpayload ?_ ((hat25 25 _).mpr ⟨by decide, hlong⟩)
    rw [hat25]
    decide

end RasterIrq.Record
