import HomeControl.Digest.Sha256

/-!
# Keyed digests

The HMAC construction over SHA-256: the key, shortened by a digest if it is longer than a block, is
mixed with two pads, and the message is digested under the inner one and the result under the outer.
-/

namespace HomeControl.Hmac

/-- The length of a digest block. -/
def blockLength : Nat := 64

/-- The key as one block. -/
def keyBlock (key : Bytes) : Bytes :=
  let short := if key.length ≤ blockLength then key else Sha256.digest key
  short ++ List.replicate (blockLength - short.length) 0

/-- The keyed digest of a message. -/
def digest (key message : Bytes) : Bytes :=
  let block := keyBlock key
  let inner := Sha256.digest (block.map (· ^^^ 0x36) ++ message)
  Sha256.digest (block.map (· ^^^ 0x5c) ++ inner)

/-- A keyed digest has thirty-two bytes. -/
theorem length_digest (key message : Bytes) : (digest key message).length = 32 :=
  Sha256.length_digest _

end HomeControl.Hmac
