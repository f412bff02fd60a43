import AgentMsg.Lib.Utf8

/-!
# Base64 in the URL-safe alphabet, without padding

Three bytes become four characters; a final group of one or two bytes becomes
two or three characters.  The decoder is strict: it refuses characters outside
the alphabet, a final group of one character, and a final group whose unused
low bits are not zero.  Decoding undoes encoding on every byte string.
-/

namespace Base64

/-- The character of a six-bit group. -/
def charOf (sextet : Nat) : Char :=
  if sextet < 26 then Char.ofNat (65 + sextet)
  else if sextet < 52 then Char.ofNat (71 + sextet)
  else if sextet < 62 then Char.ofNat (sextet - 4)
  else if sextet = 62 then '-'
  else '_'

/-- The six-bit group of a character, if it is in the alphabet. -/
def valueOf (letter : Char) : Option Nat :=
  if 'A' ≤ letter ∧ letter ≤ 'Z' then some (letter.toNat - 65)
  else if 'a' ≤ letter ∧ letter ≤ 'z' then some (letter.toNat - 71)
  else if '0' ≤ letter ∧ letter ≤ '9' then some (letter.toNat + 4)
  else if letter = '-' then some 62
  else if letter = '_' then some 63
  else none

/-- Encode bytes, three at a time. -/
def encodeChars : List UInt8 → List Char
  | [] => []
  | [a] =>
      [charOf (a.toNat / 4), charOf (a.toNat % 4 * 16)]
  | [a, b] =>
      [charOf (a.toNat / 4),
        charOf (a.toNat % 4 * 16 + b.toNat / 16),
        charOf (b.toNat % 16 * 4)]
  | a :: b :: c :: rest =>
      charOf (a.toNat / 4) ::
        charOf (a.toNat % 4 * 16 + b.toNat / 16) ::
        charOf (b.toNat % 16 * 4 + c.toNat / 64) ::
        charOf (c.toNat % 64) :: encodeChars rest

/-- Decode characters, four at a time. -/
def decodeChars : List Char → Option (List UInt8)
  | [] => some []
  | [_] => none
  | [w, x] => do
      let p ← valueOf w
      let q ← valueOf x
      if q % 16 = 0 then
        some [(p * 4 + q / 16).toUInt8]
      else none
  | [w, x, y] => do
      let p ← valueOf w
      let q ← valueOf x
      let r ← valueOf y
      if r % 4 = 0 then
        some [(p * 4 + q / 16).toUInt8, (q % 16 * 16 + r / 4).toUInt8]
      else none
  | w :: x :: y :: z :: rest => do
      let p ← valueOf w
      let q ← valueOf x
      let r ← valueOf y
      let s ← valueOf z
      let tail ← decodeChars rest
      some ((p * 4 + q / 16).toUInt8 :: (q % 16 * 16 + r / 4).toUInt8 ::
        (r % 4 * 64 + s).toUInt8 :: tail)

/-- Encode bytes as text. -/
def encode (bytes : List UInt8) : String :=
  String.ofList (encodeChars bytes)

/-- Decode text to bytes. -/
def decode (text : String) : Option (List UInt8) :=
  decodeChars text.toList

@[simp]
theorem valueOf_charOf {sextet : Nat} (bound : sextet < 64) :
    valueOf (charOf sextet) = some sextet := by
  have all : ∀ group : Fin 64, valueOf (charOf group) = some group.val := by
    decide
  exact all ⟨sextet, bound⟩

private theorem toUInt8_eq_of_eq
    {value : Nat} {byte : UInt8} (equal : value = byte.toNat) :
    value.toUInt8 = byte := by
  subst equal
  simp

theorem decodeChars_encodeChars (bytes : List UInt8) :
    decodeChars (encodeChars bytes) = some bytes := by
  induction bytes using encodeChars.induct with
  | case1 =>
      rfl
  | case2 a =>
      have bound := a.toNat_lt
      have first : a.toNat / 4 * 4 + a.toNat % 4 * 16 / 16 = a.toNat := by
        omega
      rw [encodeChars, decodeChars,
        valueOf_charOf (by omega), valueOf_charOf (by omega)]
      simp only [Option.bind_eq_bind, Option.bind_some]
      rw [if_pos (by omega), toUInt8_eq_of_eq first]
  | case3 a b =>
      have boundA := a.toNat_lt
      have boundB := b.toNat_lt
      have first :
          a.toNat / 4 * 4 + (a.toNat % 4 * 16 + b.toNat / 16) / 16 =
            a.toNat := by
        omega
      have second :
          (a.toNat % 4 * 16 + b.toNat / 16) % 16 * 16 +
              b.toNat % 16 * 4 / 4 = b.toNat := by
        omega
      rw [encodeChars, decodeChars, valueOf_charOf (by omega),
        valueOf_charOf (by omega), valueOf_charOf (by omega)]
      simp only [Option.bind_eq_bind, Option.bind_some]
      rw [if_pos (by omega), toUInt8_eq_of_eq first, toUInt8_eq_of_eq second]
  | case4 a b c rest inductionHypothesis =>
      have boundA := a.toNat_lt
      have boundB := b.toNat_lt
      have boundC := c.toNat_lt
      have first :
          a.toNat / 4 * 4 + (a.toNat % 4 * 16 + b.toNat / 16) / 16 =
            a.toNat := by
        omega
      have second :
          (a.toNat % 4 * 16 + b.toNat / 16) % 16 * 16 +
              (b.toNat % 16 * 4 + c.toNat / 64) / 4 = b.toNat := by
        omega
      have third :
          (b.toNat % 16 * 4 + c.toNat / 64) % 4 * 64 + c.toNat % 64 =
            c.toNat := by
        omega
      rw [encodeChars, decodeChars, valueOf_charOf (by omega),
        valueOf_charOf (by omega), valueOf_charOf (by omega),
        valueOf_charOf (by omega), inductionHypothesis]
      simp only [Option.bind_eq_bind, Option.bind_some]
      rw [toUInt8_eq_of_eq first, toUInt8_eq_of_eq second,
        toUInt8_eq_of_eq third]

/-- Decoding undoes encoding. -/
@[simp]
theorem decode_encode (bytes : List UInt8) :
    decode (encode bytes) = some bytes := by
  rw [decode, encode, String.toList_ofList]
  exact decodeChars_encodeChars bytes

example : encode [77, 97] = "TWE" := by decide

/-! ## Sizes -/

theorem length_encodeChars (bytes : List UInt8) :
    (encodeChars bytes).length = (4 * bytes.length + 2) / 3 := by
  induction bytes using encodeChars.induct with
  | case1 =>
      rfl
  | case2 a =>
      simp [encodeChars]
  | case3 a b =>
      simp [encodeChars]
  | case4 a b c rest inductionHypothesis =>
      simp only [encodeChars, List.length_cons, inductionHypothesis]
      omega

/-- Encoded text is made of characters of the alphabet. -/
theorem mem_encodeChars {bytes : List UInt8} {letter : Char}
    (member : letter ∈ encodeChars bytes) : ∃ sextet < 64, letter = charOf sextet := by
  induction bytes using encodeChars.induct with
  | case1 =>
      exact absurd member List.not_mem_nil
  | case2 a =>
      have bound := a.toNat_lt
      simp only [encodeChars, List.mem_cons, List.not_mem_nil, or_false] at member
      rcases member with same | same
      all_goals exact ⟨_, by omega, same⟩
  | case3 a b =>
      have boundA := a.toNat_lt
      have boundB := b.toNat_lt
      simp only [encodeChars, List.mem_cons, List.not_mem_nil, or_false] at member
      rcases member with same | same | same
      all_goals exact ⟨_, by omega, same⟩
  | case4 a b c rest inductionHypothesis =>
      have boundA := a.toNat_lt
      have boundB := b.toNat_lt
      have boundC := c.toNat_lt
      simp only [encodeChars, List.mem_cons] at member
      rcases member with same | same | same | same | later
      · exact ⟨_, by omega, same⟩
      · exact ⟨_, by omega, same⟩
      · exact ⟨_, by omega, same⟩
      · exact ⟨_, by omega, same⟩
      · exact inductionHypothesis later

/-- What holds of the alphabet holds of every character of an encoded text. -/
theorem of_mem_encode
    {property : Char → Prop} (alphabet : ∀ group : Fin 64, property (charOf group))
    {bytes : List UInt8} {letter : Char} (member : letter ∈ (encode bytes).toList) :
    property letter := by
  rw [encode, String.toList_ofList] at member
  obtain ⟨sextet, bound, rfl⟩ := mem_encodeChars member
  exact alphabet ⟨sextet, bound⟩

theorem utf8Size_of_mem_encodeChars {bytes : List UInt8} {letter : Char}
    (member : letter ∈ encodeChars bytes) : letter.utf8Size = 1 := by
  have all : ∀ group : Fin 64, (charOf group).utf8Size = 1 := by
    decide
  obtain ⟨sextet, bound, rfl⟩ := mem_encodeChars member
  exact all ⟨sextet, bound⟩

/-- Four characters of one byte for every three bytes, rounded up. -/
theorem utf8ByteSize_encode (bytes : List UInt8) :
    (encode bytes).utf8ByteSize = (4 * bytes.length + 2) / 3 := by
  rw [encode, Utf8.utf8ByteSize_ofList, Utf8.size_of_ones, length_encodeChars]
  intro letter
  exact utf8Size_of_mem_encodeChars

/-! ## Only encodings are decoded -/

theorem valueOf_eq_some {letter : Char} {sextet : Nat} (value : valueOf letter = some sextet) :
    sextet < 64 ∧ charOf sextet = letter := by
  rw [valueOf] at value
  split at value
  · next upper =>
      obtain ⟨low, high⟩ := upper
      have first : 65 ≤ letter.toNat := low
      have last : letter.toNat ≤ 90 := high
      cases value
      refine ⟨by omega, ?_⟩
      rw [charOf, if_pos (by omega), Nat.add_sub_cancel' first, Char.ofNat_toNat]
  · split at value
    · next lower =>
        obtain ⟨low, high⟩ := lower
        have first : 97 ≤ letter.toNat := low
        have last : letter.toNat ≤ 122 := high
        cases value
        refine ⟨by omega, ?_⟩
        rw [charOf, if_neg (by omega), if_pos (by omega), Nat.add_sub_cancel' (by omega),
          Char.ofNat_toNat]
    · split at value
      · next digit =>
          obtain ⟨low, high⟩ := digit
          have first : 48 ≤ letter.toNat := low
          have last : letter.toNat ≤ 57 := high
          cases value
          refine ⟨by omega, ?_⟩
          rw [charOf, if_neg (by omega), if_neg (by omega), if_pos (by omega),
            Nat.add_sub_cancel, Char.ofNat_toNat]
      · split at value
        · next dash =>
            cases value
            exact ⟨by decide, dash.symm⟩
        · split at value
          · next line =>
              cases value
              exact ⟨by decide, line.symm⟩
          · cases value

private theorem toNat_toUInt8 {value : Nat} (small : value < 256) :
    value.toUInt8.toNat = value :=
  UInt8.toNat_ofNat_of_lt' small

/-- The decoder is strict: what it accepts is what the encoder writes. -/
theorem encodeChars_of_decodeChars
    {letters : List Char} {bytes : List UInt8} (decoded : decodeChars letters = some bytes) :
    encodeChars bytes = letters := by
  induction letters using decodeChars.induct generalizing bytes with
  | case1 =>
      cases decoded
      rfl
  | case2 letter =>
      cases decoded
  | case3 w x =>
      simp only [decodeChars, Option.bind_eq_bind, Option.bind_eq_some_iff] at decoded
      obtain ⟨p, first, q, second, rest⟩ := decoded
      obtain ⟨smallP, rfl⟩ := valueOf_eq_some first
      obtain ⟨smallQ, rfl⟩ := valueOf_eq_some second
      split at rest
      · next zero =>
          cases rest
          rw [encodeChars, toNat_toUInt8 (by omega)]
          have high : (p * 4 + q / 16) / 4 = p := by omega
          have low : (p * 4 + q / 16) % 4 * 16 = q := by omega
          rw [high, low]
      · cases rest
  | case4 w x y =>
      simp only [decodeChars, Option.bind_eq_bind, Option.bind_eq_some_iff] at decoded
      obtain ⟨p, first, q, second, r, third, rest⟩ := decoded
      obtain ⟨smallP, rfl⟩ := valueOf_eq_some first
      obtain ⟨smallQ, rfl⟩ := valueOf_eq_some second
      obtain ⟨smallR, rfl⟩ := valueOf_eq_some third
      split at rest
      · next zero =>
          cases rest
          rw [encodeChars, toNat_toUInt8 (by omega), toNat_toUInt8 (by omega)]
          have high : (p * 4 + q / 16) / 4 = p := by omega
          have middle : (p * 4 + q / 16) % 4 * 16 + (q % 16 * 16 + r / 4) / 16 = q := by omega
          have low : (q % 16 * 16 + r / 4) % 16 * 4 = r := by omega
          rw [high, middle, low]
      · cases rest
  | case5 w x y z rest inductionHypothesis =>
      simp only [decodeChars, Option.bind_eq_bind, Option.bind_eq_some_iff] at decoded
      obtain ⟨p, first, q, second, r, third, s, fourth, tail, later, same⟩ := decoded
      obtain ⟨smallP, rfl⟩ := valueOf_eq_some first
      obtain ⟨smallQ, rfl⟩ := valueOf_eq_some second
      obtain ⟨smallR, rfl⟩ := valueOf_eq_some third
      obtain ⟨smallS, rfl⟩ := valueOf_eq_some fourth
      cases same
      rw [encodeChars, toNat_toUInt8 (by omega), toNat_toUInt8 (by omega),
        toNat_toUInt8 (by omega), inductionHypothesis later]
      have one : (p * 4 + q / 16) / 4 = p := by omega
      have two : (p * 4 + q / 16) % 4 * 16 + (q % 16 * 16 + r / 4) / 16 = q := by omega
      have three : (q % 16 * 16 + r / 4) % 16 * 4 + (r % 4 * 64 + s) / 64 = r := by omega
      have four : (r % 4 * 64 + s) % 64 = s := by omega
      rw [one, two, three, four]

/-- A text is decoded exactly when it is an encoding. -/
theorem decode_eq_some {text : String} {bytes : List UInt8} :
    decode text = some bytes ↔ text = encode bytes := by
  constructor
  · intro decoded
    rw [encode, encodeChars_of_decodeChars decoded, String.ofList_toList]
  · rintro rfl
    exact decode_encode bytes

theorem encode_injective {first second : List UInt8} (same : encode first = encode second) :
    first = second := by
  have decoded := decode_encode first
  rw [same, decode_encode] at decoded
  exact (Option.some.inj decoded).symm

end Base64
