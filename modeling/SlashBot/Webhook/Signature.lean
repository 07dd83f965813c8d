import SlashBot.Digest.Hmac
import SlashBot.Fault
import SlashBot.Text.Utf8

/-!
# Signatures

A delivery is signed with a secret that the sender shares: the signature names its
method and gives the authentication code of the body in lower-case hexadecimal
digits. Without a secret every delivery is accepted.
-/

namespace SlashBot.Signature

open SlashBot.Digest
open SlashBot.Text

/-- The text with which every signature begins. -/
def marker : List Char := "sha256=".toList

/-- The authentication code of a body, as a signature shows it. -/
def code (secret : String) (body : List UInt8) : List Char :=
  (hexText (hmacSha256 (encodeUtf8 secret.toList) body)).toList

/-- Whether a body is accepted with a signature. A code can only be compared if it
is ASCII. -/
def accepts (secret : Option String) (body : List UInt8) (signature : Option String) :
    Except Fault Bool :=
  match secret.filter (· != "") with
  | none => .ok true
  | some secret =>
      let given := (signature.getD "").toList
      if !marker.isPrefixOf given then .ok false
      else
        let rest := given.drop marker.length
        if rest.any fun c => c.toNat > 127 then .error .wrongKind
        else .ok (rest == code secret body)

end SlashBot.Signature
