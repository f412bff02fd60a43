import AgentMsg.Trust
import Mathlib.Tactic.IntervalCases

/-!
# Tokens that are encoded and decoded

A token is a fixed beginning, a base64 body and the checksum of that body in base64.
None of these characters is white space, and the checksum holds no dot, so decoding
finds the parts again.
-/

namespace AgentMsg

open Checked

/-! ## Text helpers -/

theorem stripPrefix_append (beginning rest : String) :
    stripPrefix beginning (beginning ++ rest) = some rest := by
  have starts : beginning.toList <+: (beginning ++ rest).toList := by
    rw [String.toList_append]
    exact List.prefix_append _ _
  rw [stripPrefix, if_pos starts, String.toList_append, ← String.length_toList,
    List.drop_left, String.ofList_toList]

private theorem dropWhile_of_clear
    {letters : List Char} (clear : ∀ letter ∈ letters, isWhitespace letter = false)
    {more : List Char} (some : letters ≠ []) :
    (letters ++ more).dropWhile isWhitespace = letters ++ more := by
  obtain ⟨letter, rest, rfl⟩ := List.exists_cons_of_ne_nil some
  rw [List.cons_append, List.dropWhile_cons_of_neg]
  simp [clear letter List.mem_cons_self]

/-- Nothing but white space. -/
def Blank (text : String) : Prop :=
  ∀ letter ∈ text.toList, isWhitespace letter = true

theorem blank_empty : Blank "" :=
  fun _ member => absurd member List.not_mem_nil

/-- Trimming removes the white space around a text that has none. -/
theorem trim_surrounded
    {lead text tail : String} (leadBlank : Blank lead) (tailBlank : Blank tail)
    (clear : ∀ letter ∈ text.toList, isWhitespace letter = false) :
    trim (lead ++ text ++ tail) = text := by
  have tailBlankReversed : ∀ letter ∈ tail.toList.reverse, isWhitespace letter = true :=
    fun letter member => tailBlank letter (List.mem_reverse.mp member)
  rw [trim, String.toList_append, String.toList_append, List.append_assoc,
    List.dropWhile_append_of_pos leadBlank]
  by_cases empty : text.toList = []
  · rw [empty, List.nil_append, ← List.append_nil tail.toList,
      List.dropWhile_append_of_pos tailBlank, List.dropWhile_nil]
    exact (String.toList_eq_nil_iff.mp empty).symm
  · have reversed : ∀ letter ∈ text.toList.reverse, isWhitespace letter = false :=
      fun letter member => clear letter (List.mem_reverse.mp member)
    have backwards := @dropWhile_of_clear _ reversed [] (mt List.reverse_eq_nil_iff.mp empty)
    rw [List.append_nil] at backwards
    rw [dropWhile_of_clear clear empty, List.reverse_append,
      List.dropWhile_append_of_pos tailBlankReversed, backwards, List.reverse_reverse,
      String.ofList_toList]

/-- A text without white space is its own trimming. -/
theorem trim_of_clear
    {text : String} (clear : ∀ letter ∈ text.toList, isWhitespace letter = false) :
    trim text = text := by
  have surrounded := trim_surrounded blank_empty blank_empty clear
  rwa [String.empty_append, String.append_empty] at surrounded

/-- A text that ends in a separator-free part splits before that part. -/
theorem rsplitOnce_append
    {separator : Char} {front rest : String} (absent : separator ∉ rest.toList) :
    rsplitOnce separator (front ++ String.singleton separator ++ rest) = some (front, rest) := by
  have clear : ∀ letter ∈ rest.toList.reverse, (letter != separator) = true := by
    intro letter member
    have different : letter ≠ separator := by
      rintro rfl
      exact absent (List.mem_reverse.mp member)
    simpa using different
  have letters : (front ++ String.singleton separator ++ rest).toList.reverse =
      rest.toList.reverse ++ separator :: front.toList.reverse := by
    simp
  rw [rsplitOnce, letters, List.takeWhile_append_of_pos clear,
    List.dropWhile_append_of_pos clear]
  simp

theorem b64_clear {bytes : Bytes} {letter : Char} (member : letter ∈ (b64 bytes).toList) :
    isWhitespace letter = false :=
  @Base64.of_mem_encode (fun letter => isWhitespace letter = false) (by decide) _ _ member

theorem dot_not_mem_b64 (bytes : Bytes) : '.' ∉ (b64 bytes).toList := by
  intro member
  have different : '.' ≠ '.' :=
    @Base64.of_mem_encode (fun letter => letter ≠ '.') (by decide) _ _ member
  exact different rfl

/-! ## The checksum -/

private theorem joined_bytes (word : BitVec 32) :
    ((word >>> 24).setWidth 8).setWidth 32 <<< 24 |||
        ((word >>> 16).setWidth 8).setWidth 32 <<< 16 |||
        ((word >>> 8).setWidth 8).setWidth 32 <<< 8 ||| (word.setWidth 8).setWidth 32 =
      word := by
  ext index bound
  simp only [BitVec.getElem_or, BitVec.getElem_shiftLeft, BitVec.getElem_setWidth,
    BitVec.getLsbD_setWidth, BitVec.getLsbD_ushiftRight]
  interval_cases index <;> simp [← BitVec.getLsbD_eq_getElem]

/-- Reading undoes writing a word in big-endian bytes. -/
theorem fromBeBytes_toBeBytes (word : UInt32) : fromBeBytes (toBeBytes word) = some word := by
  simp only [toBeBytes, fromBeBytes, Option.some.injEq]
  apply UInt32.eq_of_toBitVec_eq
  exact joined_bytes word.toBitVec

theorem checkedBody_checksummed (P : Platform) (json : Bytes) :
    checkedBody P (checksummed P json) = .ok json := by
  have split : rsplitOnce '.' (checksummed P json) =
      some (b64 json, b64 (toBeBytes (P.crc32 (asBytes (b64 json))))) :=
    rsplitOnce_append (dot_not_mem_b64 _)
  simp only [checkedBody, bind_eq_ok, okOr_eq_ok, ensure_eq_ok]
  exact ⟨_, split, _, unb64_b64 _, _, fromBeBytes_toBeBytes _, (), rfl, unb64_b64 _⟩

theorem checksummed_clear
    {P : Platform} {json : Bytes} {letter : Char}
    (member : letter ∈ (checksummed P json).toList) : isWhitespace letter = false := by
  have dot : ".".toList = ['.'] := rfl
  simp only [checksummed, String.toList_append, dot, List.mem_append, List.mem_singleton]
    at member
  rcases member with (body | rfl) | checksum
  · exact b64_clear body
  · decide
  · exact b64_clear checksum

/-- What follows the fixed beginning of a token is found again after trimming. -/
theorem stripPrefix_trim
    {lead beginning rest tail : String} (leadBlank : Blank lead) (tailBlank : Blank tail)
    (beginningClear : beginning.toList.any isWhitespace = false)
    (restClear : ∀ letter ∈ rest.toList, isWhitespace letter = false) :
    stripPrefix beginning (trim (lead ++ (beginning ++ rest) ++ tail)) = some rest := by
  rw [trim_surrounded leadBlank tailBlank, stripPrefix_append]
  intro letter member
  rw [String.toList_append, List.mem_append] at member
  rcases member with begins | follows
  · simpa using List.any_eq_false.mp beginningClear letter begins
  · exact restClear letter follows

/-! ## Round trips -/

/-- The shareable token of an identity. -/
def Identity.token (identity : Identity) : IdentityToken :=
  { name := identity.name, publicKey := identity.publicKey, kemPublicKey := some identity.kemEk }

section RoundTrips

variable {P : Platform} {lead tail : String}

/-- A named token with a key of the right length decodes to what was encoded, with white
space around it. -/
theorem IdentityToken.decode_surrounded
    {token : IdentityToken} (lawful : P.tokenV2Json.Lawful)
    (named : token.name ≠ "") (sized : token.publicKey.length = PUBLIC_KEY_LEN)
    (leadBlank : Blank lead) (tailBlank : Blank tail) :
    IdentityToken.decode P (lead ++ IdentityToken.encode P token ++ tail) = .ok token := by
  have decoded : IdentityToken.decodeV2 P (checksummed P (P.tokenV2Json.encode
      { name := token.name, pk := b64 token.publicKey,
        kemPk := token.kemPublicKey.map b64 })) = .ok token := by
    simp only [IdentityToken.decodeV2, bind_eq_ok, okOr_eq_ok, ensure_eq_ok, checkPkLen]
    refine ⟨_, checkedBody_checksummed P _, _, lawful _, (), named, _, unb64_b64 _, (), sized, ?_⟩
    cases kem : token.kemPublicKey with
    | none =>
        rw [Option.map_none, pure_eq_ok, ← kem]
    | some key =>
        simp only [Option.map_some, bind_eq_ok, okOr_eq_ok, pure_eq_ok]
        refine ⟨key, unb64_b64 key, ?_⟩
        rw [← kem]
  rw [IdentityToken.decode, IdentityToken.encode,
    stripPrefix_trim leadBlank tailBlank (by decide) fun _ => checksummed_clear]
  exact decoded

theorem AuthorityToken.decode_surrounded
    {token : AuthorityToken} (lawful : P.authTokenJson.Lawful)
    (named : token.name ≠ "") (sized : token.publicKey.length = PUBLIC_KEY_LEN)
    (leadBlank : Blank lead) (tailBlank : Blank tail) :
    AuthorityToken.decode P (lead ++ AuthorityToken.encode P token ++ tail) = .ok token := by
  simp only [AuthorityToken.decode, AuthorityToken.encode, bind_eq_ok, okOr_eq_ok, ensure_eq_ok,
    checkPkLen, pure_eq_ok]
  exact ⟨_, stripPrefix_trim leadBlank tailBlank (by decide) fun _ => checksummed_clear,
    _, checkedBody_checksummed P _, _, lawful _, (), named, _, unb64_b64 _, (), sized, rfl⟩

end RoundTrips

theorem IdentityToken.decode_encode
    {P : Platform} {token : IdentityToken} (lawful : P.tokenV2Json.Lawful)
    (named : token.name ≠ "") (sized : token.publicKey.length = PUBLIC_KEY_LEN) :
    IdentityToken.decode P (IdentityToken.encode P token) = .ok token := by
  have surrounded :=
    IdentityToken.decode_surrounded lawful named sized blank_empty blank_empty
  rwa [String.empty_append, String.append_empty] at surrounded

end AgentMsg
