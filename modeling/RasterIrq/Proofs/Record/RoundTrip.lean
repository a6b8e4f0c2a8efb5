import RasterIrq.Proofs.Json.Reading
import RasterIrq.Record.Encoding

/-!
# Encoded records decode

Every part of a record reads back from the JSON value that it is written as, so a record's payload
reads back as the record, and the frame around a payload decodes to what the payload says. No
restriction is put on the record: names with quotes and control characters, 64-bit cycles and lists
of any length all survive.

Results:
1. `Record.ofPayload?_payload`: a record's payload reads as the record.
2. `Record.decode_framed`: a payload in its frame decodes to what it reads as.
3. `Record.decode_encode`: an encoded record decodes to itself.
-/

namespace RasterIrq

/-! ## The parts of a record -/

namespace Counter

theorem ofJson?_toJson (c : Counter) : ofJson? c.toJson = some c := by
  have h : c.toJson.fields? fieldNames = _ := Json.fields?_ofFields (by simp)
  rw [ofJson?, h]
  simp only [List.map_cons, List.map_nil, Option.bind_eq_bind, Option.bind_some,
    Json.word16?_ofNat, Json.ofBool, Json.bool?, Option.pure_def]

theorem readable_toJson (c : Counter) : c.toJson.Readable := by
  rw [toJson, Json.readable_ofFields_iff]
  simp only [List.forall_mem_cons]
  exact ⟨Json.readable_ofNat _, Json.readable_ofNat _, Json.readable_ofBool _,
    Json.readable_ofBool _, Json.readable_ofBool _, fun f hf => nomatch hf⟩

end Counter

namespace Monitor

theorem lastEdgeOfJson?_ofOption (o : Option UInt64) :
    lastEdgeOfJson? (some (.ofOption (fun c => .ofNat c.toNat) o)) = some o :=
  Json.nullable?_ofOption Json.word64?_ofNat (fun c h => by cases h) o

theorem ofJson?_toJson (m : Monitor) : ofJson? m.toJson = some m := by
  have h : m.toJson.fields? fieldNames = _ := Json.fields?_ofFields (by simp)
  rw [ofJson?, h]
  simp only [List.map_cons, List.map_nil, Option.bind_eq_bind, Option.bind_some,
    lastEdgeOfJson?_ofOption, Json.word64?_ofNat, Json.ofBool, Json.bool?, Option.pure_def]

theorem readable_toJson (m : Monitor) : m.toJson.Readable := by
  rw [toJson, Json.readable_ofFields_iff]
  simp only [List.forall_mem_cons]
  exact ⟨Json.readable_ofBool _, Json.readable_ofOption (fun c => Json.readable_ofNat _) _,
    Json.readable_ofNat _, fun f hf => nomatch hf⟩

end Monitor

theorem Mirroring.ofJson?_ofText (m : Mirroring) : ofJson? (.ofText m.name) = some m := by
  rw [ofJson?, Json.choice?_ofText]
  exact ofName?_name m

/-! ## The whole record -/

namespace Record

theorem bytesOfJson?_bytesToJson (bytes : List UInt8) :
    bytesOfJson? (bytesToJson bytes) = some bytes := by
  show (bytes.map fun b => Json.ofNat b.toNat).mapM Json.word8? = some bytes
  rw [List.mapM_map]
  exact (Json.mapM_eq_some (g := id) fun b _ => Json.word8?_ofNat b).trans
    (congrArg some (List.map_id bytes))

theorem readable_bytesToJson (bytes : List UInt8) : (bytesToJson bytes).Readable := by
  refine Json.readable_list_iff.mpr fun v hv => ?_
  obtain ⟨b, _, rfl⟩ := List.mem_map.mp hv
  exact Json.readable_ofNat b.toNat

theorem ofJson?_toJson (r : Record) : ofJson? r.toJson = some r := by
  have h : r.toJson.fields? fieldNames = _ := Json.fields?_ofFields (by simp)
  rw [ofJson?, h]
  simp only [List.map_cons, List.map_nil, Option.bind_eq_bind, Option.bind_some,
    Counter.ofJson?_toJson, Monitor.ofJson?_toJson, bytesOfJson?_bytesToJson,
    Mirroring.ofJson?_ofText, Json.text?_ofText, Option.pure_def]

theorem readable_toJson (r : Record) : r.toJson.Readable := by
  rw [toJson, Json.readable_ofFields_iff]
  simp only [List.forall_mem_cons]
  exact ⟨Json.readable_ofText _, r.counter.readable_toJson, r.monitor.readable_toJson,
    readable_bytesToJson _, readable_bytesToJson _, Json.readable_ofText _,
    fun f hf => nomatch hf⟩

/-- A record's payload reads as the record. -/
theorem ofPayload?_payload (r : Record) : ofPayload? r.payload = some r := by
  rw [ofPayload?, payload, Json.ofText?_compact r.readable_toJson, Option.bind_eq_bind,
    Option.bind_some, ofJson?_toJson]

/-! ## The frame -/

/-- A payload behind magic, version and its digest. -/
def framed (payload : List UInt8) : List UInt8 :=
  magic ++ version :: (Sha1.digest payload ++ payload)

theorem encode_eq_framed (r : Record) : r.encode = framed r.payload := rfl

/-- Behind magic and version, first the digest is compared and then the payload is read. -/
theorem decode_of_header {digest : List UInt8} (hdigest : digest.length = 20)
    (payload : List UInt8) :
    decode (magic ++ version :: (digest ++ payload))
      = if Sha1.digest payload ≠ digest then .error .checksumMismatch
        else
          match ofPayload? payload with
          | some r => .ok r
          | none => .error .malformed := by
  generalize hbytes : magic ++ version :: (digest ++ payload) = bytes
  have hlength : bytes.length = 25 + payload.length := by
    rw [← hbytes, List.length_append, List.length_cons, List.length_append, hdigest]
    show 4 + (20 + payload.length + 1) = 25 + payload.length
    omega
  have hmagic : bytes.take 4 = magic := by rw [← hbytes]; rfl
  have hversion : bytes.getD 4 0 = version := by rw [← hbytes]; rfl
  have hdrop : bytes.drop headerSize = payload := by
    simp [← hbytes, headerSize, magic, hdigest]
  have htake : (bytes.drop 5).take 20 = digest := by
    simp [← hbytes, magic, hdigest]
  have hframe : decode bytes
      = if Sha1.digest (bytes.drop headerSize) ≠ (bytes.drop 5).take 20 then
          .error .checksumMismatch
        else
          match ofPayload? (bytes.drop headerSize) with
          | some r => .ok r
          | none => .error .malformed := by
    unfold decode
    exact (if_neg (by omega)).trans <| (if_neg fun h => h hmagic).trans <|
      (if_neg (by rw [headerSize]; omega)).trans (if_neg fun h => h hversion)
  rw [hframe, hdrop, htake]

/-- A payload in its frame decodes to what it reads as; only its own form can be at fault. -/
theorem decode_framed (payload : List UInt8) :
    decode (framed payload)
      = match ofPayload? payload with
        | some r => .ok r
        | none => .error .malformed := by
  rw [framed, decode_of_header (Sha1.length_digest payload), if_neg (not_not.mpr rfl)]

/-- Every record survives encoding and decoding. -/
theorem decode_encode (r : Record) : decode r.encode = .ok r := by
  rw [encode_eq_framed, decode_framed, ofPayload?_payload]

end Record

end RasterIrq
