import RasterIrq.Record.Payload
import RasterIrq.Sha1

/-!
# Records as bytes

An encoded record is four bytes of magic, a version, the SHA-1 digest of the payload and the
payload. Decoding looks at them in that order, so of several faults the one that comes first in the
bytes is reported; bytes that end before the digest does are truncated, but only once the magic was
found in them.
-/

namespace RasterIrq.Record

/-- The four bytes that every record starts with. -/
def magic : List UInt8 := [0x41, 0x31, 0x32, 0x53]

def version : UInt8 := 1

/-- The bytes before the payload: magic, version and digest. -/
def headerSize : Nat := 25

def encode (r : Record) : List UInt8 :=
  magic ++ version :: (Sha1.digest r.payload ++ r.payload)

def decode (bytes : List UInt8) : Except RecordError Record :=
  if bytes.length < 4 then .error (.truncated bytes.length)
  else if bytes.take 4 ≠ magic then .error .badMagic
  else if bytes.length < headerSize then .error (.truncated bytes.length)
  else if bytes.getD 4 0 ≠ version then .error (.unsupportedVersion (bytes.getD 4 0))
  else if Sha1.digest (bytes.drop headerSize) ≠ (bytes.drop 5).take 20 then
    .error .checksumMismatch
  else
    match ofPayload? (bytes.drop headerSize) with
    | some r => .ok r
    | none => .error .malformed

end RasterIrq.Record
