import RasterIrq.Proofs.Json.Cutting
import RasterIrq.Proofs.Record.RoundTrip

/-!
# Truncated records

No part of an encoded record that is cut off at its end decodes. A part that ends before the payload
does so is truncated. A longer one has another payload behind the digest of the whole one: either
the digests differ, or the payload is malformed, because it is an object without its closing
bracket. So nothing depends on whether two payloads may have one digest.

Results:
1. `Json.compact_object`: an object's text stands between its brackets.
2. `Record.ofPayload?_take_payload`: a payload that is cut off does not read as a record.
3. `Record.decode_take_encode`: an encoded record that is cut off does not decode, and why.
-/

namespace RasterIrq

namespace Json

theorem exists_memberTokens_eq (ms : List (List Piece × Json)) :
    ∃ init, memberTokens ms = init ++ [.objectClose] := by
  induction ms with
  | nil => exact ⟨[], rfl⟩
  | cons m ms ih =>
    obtain ⟨init, hinit⟩ := ih
    refine ⟨.comma :: .atom (.string m.1) :: .colon :: (m.2.tokens ++ init), ?_⟩
    rw [memberTokens, hinit]
    simp

/-- An object's text stands between its brackets. -/
theorem compact_object (ms : List (List Piece × Json)) :
    ∃ inner, (object ms).compact = ascii '\x7b' :: inner ++ [ascii '\x7d'] := by
  have htokens : ∃ init, (object ms).tokens = .objectOpen :: init ++ [.objectClose] := by
    rcases ms with _ | ⟨⟨k, v⟩, ms⟩
    · exact ⟨[], rfl⟩
    · obtain ⟨init, hinit⟩ := exists_memberTokens_eq ms
      refine ⟨.atom (.string k) :: .colon :: (v.tokens ++ init), ?_⟩
      rw [tokens, hinit]
      simp
  obtain ⟨init, hinit⟩ := htokens
  refine ⟨spelled init, ?_⟩
  show spelled (object ms).tokens = _
  rw [hinit, spelled_append]
  rfl

end Json

namespace Record

/-- A payload that is cut off does not read as a record. -/
theorem ofPayload?_take_payload (r : Record) {k : Nat} (h : k < r.payload.length) :
    ofPayload? (r.payload.take k) = none := by
  obtain ⟨inner, hinner⟩ : ∃ inner, r.payload = Json.ascii '\x7b' :: inner ++ [Json.ascii '\x7d'] :=
    Json.compact_object _
  have hwhole : Json.ofText? r.payload = some r.toJson := Json.ofText?_compact r.readable_toJson
  cases k with
  | zero =>
    have hempty : Json.ofText? [] = none := by
      rw [Json.ofText?, Json.Token.scan, Json.Token.scanFrom]
      rfl
    rw [List.take_zero, ofPayload?, hempty]
    rfl
  | succ k =>
    have hsplit : Json.ascii '\x7b' :: inner.take k ++ (inner.drop k ++ [Json.ascii '\x7d'])
        = r.payload := by
      rw [hinner, ← List.append_assoc, List.cons_append, List.take_append_drop]
    have hk : k ≤ inner.length := by
      rw [hinner] at h
      simpa [Nat.lt_succ_iff] using h
    have htake : r.payload.take (k + 1) = Json.ascii '\x7b' :: inner.take k := by
      rw [hinner, List.cons_append, List.take_succ_cons, List.take_append_of_le_length hk]
    have hcut : Json.ofText? (Json.ascii '\x7b' :: inner.take k) = none := by
      refine Json.ofText?_eq_none_of_cut (by decide) (t := .objectOpen) (by decide)
        ⟨Json.ascii '\x7d', by simp, by decide⟩ (hsplit ▸ hwhole)
    rw [htake, ofPayload?, hcut]
    rfl

theorem length_encode (r : Record) : r.encode.length = headerSize + r.payload.length := by
  have h := Sha1.length_digest r.payload
  simp [encode, magic, headerSize, h]
  omega

/-- An encoded record that is cut off does not decode. In front of the payload it is truncated; from
there on the digest is not that of the part, or the part is malformed. -/
theorem decode_take_encode {r : Record} {k : Nat} (h : k < r.encode.length) :
    decode (r.encode.take k)
      = .error
        (if k < headerSize then .truncated k
        else if Sha1.digest (r.payload.take (k - headerSize)) = Sha1.digest r.payload then
          .malformed
        else .checksumMismatch) := by
  have hlength : (r.encode.take k).length = k := List.length_take_of_le (Nat.le_of_lt h)
  have hheader : headerSize = 25 := rfl
  by_cases hshort : k < headerSize
  · rw [if_pos hshort, decode, hlength]
    by_cases h4 : k < 4
    · rw [if_pos h4]
    · have hmagic : (r.encode.take k).take 4 = magic := by
        rw [List.take_take, Nat.min_eq_left (by omega)]
        rfl
      rw [if_neg h4, hmagic, if_neg (not_not.mpr rfl), if_pos hshort]
  · obtain ⟨j, rfl⟩ := Nat.exists_eq_add_of_le (Nat.not_lt.mp hshort)
    rw [length_encode] at h
    have htake : r.encode.take (headerSize + j)
        = magic ++ version :: (Sha1.digest r.payload ++ r.payload.take j) := by
      have hfront : (magic ++ version :: Sha1.digest r.payload).length = headerSize := by
        simp [magic, headerSize, Sha1.length_digest r.payload]
      have hencode : r.encode = (magic ++ version :: Sha1.digest r.payload) ++ r.payload := by
        simp [encode]
      rw [hencode, ← hfront, List.take_length_add_append]
      simp
    rw [if_neg hshort, Nat.add_sub_cancel_left, htake,
      decode_of_header (Sha1.length_digest r.payload), ofPayload?_take_payload r (by omega)]
    by_cases hsum : Sha1.digest (r.payload.take j) = Sha1.digest r.payload
    · rw [if_neg (not_not.mpr hsum), if_pos hsum]
    · rw [if_pos hsum, if_neg hsum]

/-- A record whose name has a quote and a bracket in it, cut off inside the payload. -/
theorem decode_take_encode_inside :
    let r : Record := ⟨"\"\x7d", {}, {}, [], [], .vertical⟩
    40 < r.encode.length ∧
      decode (r.encode.take 40)
        = .error
          (if Sha1.digest (r.payload.take (40 - headerSize)) = Sha1.digest r.payload then .malformed
          else .checksumMismatch) := by
  intro r
  have hpayload : 15 < r.payload.length := by decide +kernel
  have hlong : 40 < r.encode.length := by
    rw [length_encode]
    exact Nat.add_lt_add_left hpayload headerSize
  have hcut := decode_take_encode hlong
  rw [if_neg (show ¬ 40 < headerSize by decide)] at hcut
  exact ⟨hlong, hcut⟩

end Record

end RasterIrq
