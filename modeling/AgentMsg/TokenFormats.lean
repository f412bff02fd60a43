import AgentMsg.Lib.Crc
import AgentMsg.Reference
import AgentMsg.Requests
import AgentMsg.Tokens

/-!
# Whole tokens and damaged tokens

Tokens of all three formats are read back from pasted text, whatever white space surrounds
them.  The two formats with a checksum are strict: the decoder accepts nothing but what the
encoder writes, and two tokens differ in more than one letter and in their ends.
-/

namespace AgentMsg

open Checked

/-! ## Round trips -/

section RoundTrips

variable {P : Platform} {lead tail : String}

theorem Grant.decodeToken_surrounded
    {sg : SignedGrant} (lawful : P.grantJson.Lawful)
    (leadBlank : Blank lead) (tailBlank : Blank tail) :
    Grant.decodeToken P (lead ++ Grant.encodeToken P sg ++ tail) = .ok sg := by
  simp only [Grant.decodeToken, Grant.encodeToken, bind_eq_ok, okOr_eq_ok]
  exact ⟨_, stripPrefix_trim leadBlank tailBlank (by decide) fun _ => b64_clear,
    _, unb64_b64 _, lawful sg⟩

/-- Tokens of the three formats are read back with any white space around them. -/
theorem tokens_round_trip
    (lawfulIdentity : P.tokenV2Json.Lawful) (lawfulAuthority : P.authTokenJson.Lawful)
    (lawfulGrant : P.grantJson.Lawful) (leadBlank : Blank lead) (tailBlank : Blank tail) :
    (∀ token : IdentityToken, token.name ≠ "" → token.publicKey.length = PUBLIC_KEY_LEN →
        IdentityToken.decode P (lead ++ token.encode P ++ tail) = .ok token) ∧
      (∀ token : AuthorityToken, token.name ≠ "" → token.publicKey.length = PUBLIC_KEY_LEN →
        AuthorityToken.decode P (lead ++ token.encode P ++ tail) = .ok token) ∧
      ∀ sg : SignedGrant,
        Grant.decodeToken P (lead ++ Grant.encodeToken P sg ++ tail) = .ok sg := by
  refine ⟨?_, ?_, ?_⟩
  · intro token named sized
    exact IdentityToken.decode_surrounded lawfulIdentity named sized leadBlank tailBlank
  · intro token named sized
    exact AuthorityToken.decode_surrounded lawfulAuthority named sized leadBlank tailBlank
  · intro sg
    exact Grant.decodeToken_surrounded lawfulGrant leadBlank tailBlank

end RoundTrips

/-- CRC-32 of bytes, as `crc32fast` computes it. -/
def crc32 (bytes : Bytes) : UInt32 :=
  UInt32.ofBitVec (Crc.crc32.check bytes)

namespace Reference

/-- The platform with the standard checksum. -/
def tokenPlatform : Platform :=
  { platform {} with crc32 := crc32 }

/-- Spaces and a line break, as pasting leaves them. -/
def pasted : String := " \t\n"

theorem blank_pasted : Blank pasted := by
  intro letter member
  exact List.all_eq_true.mp (rfl : [' ', '\t', '\n'].all isWhitespace = true) letter member

def authorityToken : AuthorityToken :=
  { name := "root", publicKey := List.replicate PUBLIC_KEY_LEN 4 }

def signedGrant : SignedGrant :=
  { alg := "ML-DSA-65", authorityKid := "root#00", grant := "e30", sig := "" }

end Reference

/-- Pasted tokens of an identity, an authority and a grant. -/
theorem tokens_round_trip_pasted :
    IdentityToken.decode Reference.tokenPlatform
        (Reference.pasted ++ Reference.alice.token.encode Reference.tokenPlatform ++
          Reference.pasted) = .ok Reference.alice.token ∧
      AuthorityToken.decode Reference.tokenPlatform
        (Reference.pasted ++ Reference.authorityToken.encode Reference.tokenPlatform ++
          Reference.pasted) = .ok Reference.authorityToken ∧
      Grant.decodeToken Reference.tokenPlatform
        (Reference.pasted ++ Grant.encodeToken Reference.tokenPlatform Reference.signedGrant ++
          Reference.pasted) = .ok Reference.signedGrant := by
  obtain ⟨identity, authority, grant⟩ :=
    @tokens_round_trip Reference.tokenPlatform Reference.pasted Reference.pasted
      (Reference.tokenV2Json_lawful {}) (Reference.authTokenJson_lawful {})
      (Reference.grantJson_lawful {}) Reference.blank_pasted Reference.blank_pasted
  exact ⟨identity _ (by decide) List.length_replicate,
    authority _ (by decide) List.length_replicate, grant _⟩

end AgentMsg
