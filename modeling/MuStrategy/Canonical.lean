import MuStrategy.Lib.Json
import MuStrategy.Lib.PyFloat
import MuStrategy.Lib.Text

/-!
# Canonical JSON and its digest

Identities in the program are digests of canonical JSON. Nothing here depends on what the hash
function computes: a `Sha256` instance supplies some digest of every payload and every text, and
the type `HexDigest` says that it is written as 64 lower-case hexadecimal digits.
-/

namespace MuStrategy

open Lib

/-- The JSON values of the program. -/
abbrev JsonValue := Json PyFloat

/-- A SHA-256 digest in hexadecimal: the result of `hexdigest()`. -/
structure HexDigest where
  /-- The digits. -/
  text : String
  /-- They match `[0-9a-f]{64}`. -/
  isHex : isLowerHex 64 text = true
  deriving DecidableEq

/-- The hash functions of the program.
Fidelity: a digest is a function of its payload and matches `[0-9a-f]{64}`; which function it is
stays open. -/
class Sha256 where
  /-- `canonical_sha256(payload)`. Source: `canonical.py` `canonical_sha256`. -/
  canonicalSha256 : JsonValue → HexDigest
  /-- `hashlib.sha256(text.encode("ascii")).hexdigest()`. -/
  sha256 : String → HexDigest

export Sha256 (canonicalSha256 sha256)

/-- Sixty-four zeros. -/
def zeroDigits : String := "0000000000000000000000000000000000000000000000000000000000000000"

lemma zeroDigits_isHex : isLowerHex 64 zeroDigits = true := by decide +kernel

/-- A hash function with one digest, for concrete runs. -/
@[reducible] def zeroSha256 : Sha256 where
  canonicalSha256 _ := ⟨zeroDigits, zeroDigits_isHex⟩
  sha256 _ := ⟨zeroDigits, zeroDigits_isHex⟩

end MuStrategy
