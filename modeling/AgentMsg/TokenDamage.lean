import AgentMsg.TokenFormats

/-!
# Damaged tokens are refused

The decoders of tokens with a checksum are strict: after trimming they accept nothing but
what the encoders write.  Two written tokens differ in more than one letter, since one
letter of the body changes the checksum, and none is a proper beginning of another, since
the checksum has a fixed length.  So a token that one letter or its end has been taken from
is not a token.
-/

namespace AgentMsg

open Checked

/-! ## Texts one letter apart -/

section Letters

variable {α : Type} {blank : α → Bool}

/-- Two concatenations that differ in one letter differ in one of their parts. -/
theorem apart_cases {first second front back tail more : List α} {old new : α}
    (sized : first.length = second.length) (whole : first ++ tail = front ++ old :: back)
    (changed : second ++ more = front ++ new :: back) :
    (∃ rest, first = front ++ old :: rest ∧ second = front ++ new :: rest ∧ tail = more) ∨
      ∃ middle, first = second ∧ tail = middle ++ old :: back ∧ more = middle ++ new :: back := by
  rcases List.append_eq_append_iff.mp whole with ⟨middle, rfl, after⟩ | ⟨rest, rfl, after⟩
  · right
    rw [List.append_assoc] at changed
    obtain ⟨rfl, later⟩ := List.append_inj changed sized.symm
    exact ⟨middle, rfl, after, later⟩
  · cases rest with
    | nil =>
        right
        rw [List.append_nil] at sized
        obtain ⟨rfl, later⟩ := List.append_inj changed sized.symm
        exact ⟨[], List.append_nil _, after.symm, later⟩
    | cons letter rest =>
        left
        cases after
        have regrouped : second ++ more = (front ++ new :: rest) ++ tail := by
          rw [List.append_assoc]
          exact changed
        have lengths : second.length = (front ++ new :: rest).length := by
          rw [← sized, List.length_append, List.length_append]
          rfl
        obtain ⟨same, later⟩ := List.append_inj regrouped lengths
        exact ⟨rest, rfl, same, later.symm⟩

theorem eq_nil_of_clear_of_blank {letters : List α}
    (clear : ∀ letter ∈ letters, blank letter = false)
    (dark : ∀ letter ∈ letters, blank letter = true) : letters = [] := by
  refine List.eq_nil_iff_forall_not_mem.mpr fun letter member => ?_
  have no := clear letter member
  rw [dark letter member] at no
  cases no

/-- Where one letter may be blank, blanks at the ends are that letter. -/
theorem blank_ends {lead inner tail front back : List α} {letter : α}
    (split : lead ++ inner ++ tail = front ++ letter :: back)
    (leadBlank : ∀ letter ∈ lead, blank letter = true)
    (tailBlank : ∀ letter ∈ tail, blank letter = true)
    (frontClear : ∀ letter ∈ front, blank letter = false)
    (backClear : ∀ letter ∈ back, blank letter = false) :
    inner = front ++ letter :: back ∨ (front = [] ∧ inner = back) ∨ back = [] ∧ inner = front := by
  cases lead with
  | cons first lead =>
      cases front with
      | cons other front =>
          obtain ⟨rfl, -⟩ := List.cons.inj split
          have no := frontClear first List.mem_cons_self
          rw [leadBlank first List.mem_cons_self] at no
          cases no
      | nil =>
          obtain ⟨-, rfl⟩ := List.cons.inj split
          have noLead : lead = [] := eq_nil_of_clear_of_blank
            (fun letter member => backClear letter
              (List.mem_append_left tail (List.mem_append_left inner member)))
            (fun letter member => leadBlank letter (List.mem_cons_of_mem first member))
          have noTail : tail = [] := eq_nil_of_clear_of_blank
            (fun letter member => backClear letter (List.mem_append_right _ member)) tailBlank
          subst noLead noTail
          exact .inr (.inl ⟨rfl, (List.append_nil inner).symm⟩)
  | nil =>
      rcases List.eq_nil_or_concat' tail with rfl | ⟨more, last, rfl⟩
      · rw [List.append_nil] at split
        exact .inl split
      · rcases List.eq_nil_or_concat' back with rfl | ⟨others, final, rfl⟩
        · have ends : (inner ++ more) ++ [last] = front ++ [letter] := by
            rw [← split, List.nil_append, List.append_assoc]
          obtain ⟨rfl, -⟩ := List.append_inj' ends rfl
          have none : more = [] := eq_nil_of_clear_of_blank
            (fun letter member => frontClear letter (List.mem_append_right inner member))
            (fun letter member => tailBlank letter (List.mem_append_left [last] member))
          subst none
          exact .inr (.inr ⟨rfl, (List.append_nil inner).symm⟩)
        · have ends : (inner ++ more) ++ [last] = (front ++ letter :: others) ++ [final] := by
            rw [List.append_assoc, List.append_assoc, List.cons_append]
            exact split
          obtain ⟨-, same⟩ := List.append_inj' ends rfl
          cases same
          have no := backClear last (List.mem_append_right others List.mem_cons_self)
          rw [tailBlank last (List.mem_append_right more List.mem_cons_self)] at no
          cases no

end Letters

/-! ## What the checked decoder accepts -/

theorem rsplitOnce_eq_some
    {separator : Char} {text front rest : String}
    (split : rsplitOnce separator text = some (front, rest)) :
    text = front ++ String.singleton separator ++ rest := by
  rw [rsplitOnce] at split
  split at split
  · cases split
  · next found letters after =>
      cases split
      have head := List.head?_dropWhile_not (fun letter => letter != separator) text.toList.reverse
      have whole := @List.takeWhile_append_dropWhile _ (fun letter => letter != separator)
        text.toList.reverse
      rw [after] at head whole
      have separates : found = separator := by
        simpa using head
      have forward := congrArg List.reverse whole
      rw [List.reverse_reverse, List.reverse_append, List.reverse_cons, separates] at forward
      refine String.toList_inj.mp ?_
      rw [String.toList_append, String.toList_append, String.toList_ofList, String.toList_ofList,
        String.toList_singleton]
      exact forward.symm

private theorem parted_bytes (a b c d : BitVec 8) (word : BitVec 32)
    (joined : word = a.setWidth 32 <<< 24 ||| b.setWidth 32 <<< 16 ||| c.setWidth 32 <<< 8 |||
      d.setWidth 32) :
    (word >>> 24).setWidth 8 = a ∧ (word >>> 16).setWidth 8 = b ∧ (word >>> 8).setWidth 8 = c ∧
      word.setWidth 8 = d := by
  have outside (byte : BitVec 8) {index : Nat} (far : 8 ≤ index) : byte.getLsbD index = false :=
    BitVec.getLsbD_of_ge byte index far
  refine ⟨?_, ?_, ?_, ?_⟩
  all_goals
    ext index bound
    simp only [joined, BitVec.getElem_setWidth, BitVec.getLsbD_ushiftRight, BitVec.getLsbD_or,
      BitVec.getLsbD_shiftLeft, BitVec.getLsbD_setWidth]
    grind

theorem toBeBytes_fromBeBytes {bytes : Bytes} {word : UInt32}
    (read : fromBeBytes bytes = some word) : toBeBytes word = bytes := by
  match bytes, read with
  | [a, b, c, d], read =>
      cases read
      obtain ⟨first, second, third, fourth⟩ :=
        parted_bytes a.toBitVec b.toBitVec c.toBitVec d.toBitVec _ rfl
      simp only [toBeBytes, List.cons.injEq, and_true]
      exact ⟨UInt8.eq_of_toBitVec_eq first, UInt8.eq_of_toBitVec_eq second,
        UInt8.eq_of_toBitVec_eq third, UInt8.eq_of_toBitVec_eq fourth⟩

/-- The checked decoder accepts exactly the bodies with their checksum. -/
theorem checkedBody_eq_ok {P : Platform} {rest : String} {json : Bytes} :
    checkedBody P rest = .ok json ↔ rest = checksummed P json := by
  constructor
  · intro accepted
    simp only [checkedBody, bind_eq_ok, okOr_eq_ok, ensure_eq_ok] at accepted
    obtain ⟨⟨body, checksum⟩, split, bytes, decoded, word, read, -, same, opened⟩ := accepted
    have bodyText : body = b64 json := Base64.decode_eq_some.mp opened
    have checksumText : checksum = b64 bytes := Base64.decode_eq_some.mp decoded
    rw [rsplitOnce_eq_some split, checksumText, ← toBeBytes_fromBeBytes read, ← same, bodyText]
    rfl
  · rintro rfl
    exact checkedBody_checksummed P json

/-! ## Damage -/

/-- A text of which one letter is replaced by another one, or a part at the end is cut off. -/
inductive Damage (text : String) : String → Prop where
  | replaced (front back : List Char) (old new : Char)
      (whole : text.toList = front ++ old :: back) (differs : new ≠ old) :
      Damage text (String.ofList (front ++ new :: back))
  | cut (kept lost : List Char) (whole : text.toList = kept ++ lost) (some : lost ≠ []) :
      Damage text (String.ofList kept)

/-- No white space. -/
def Clear (letters : List Char) : Prop :=
  ∀ letter ∈ letters, isWhitespace letter = false

/-- Trimming takes white space from both ends. -/
theorem trim_split (text : String) :
    ∃ lead tail, lead ++ (trim text).toList ++ tail = text.toList ∧
      (∀ letter ∈ lead, isWhitespace letter = true) ∧
      ∀ letter ∈ tail, isWhitespace letter = true := by
  refine ⟨text.toList.takeWhile isWhitespace,
    ((text.toList.dropWhile isWhitespace).reverse.takeWhile isWhitespace).reverse, ?_,
    List.all_eq_true.mp List.all_takeWhile, ?_⟩
  · rw [trim, String.toList_ofList, List.append_assoc, ← List.reverse_append,
      List.takeWhile_append_dropWhile, List.reverse_reverse, List.takeWhile_append_dropWhile]
  · intro letter member
    exact List.all_eq_true.mp List.all_takeWhile letter (List.mem_reverse.mp member)

/-- What a damaged text without white space is after trimming: one letter apart, without its
first letter, or cut off. -/
theorem trim_of_damage
    {text damaged : String} (clear : Clear text.toList) (damage : Damage text damaged) :
    (∃ front back old new, text.toList = front ++ old :: back ∧ new ≠ old ∧
        (trim damaged).toList = front ++ new :: back) ∨
      (∃ old, text.toList = old :: (trim damaged).toList) ∨
      ∃ lost, lost ≠ [] ∧ text.toList = (trim damaged).toList ++ lost := by
  cases damage with
  | cut kept lost whole some =>
      have keptClear : ∀ letter ∈ (String.ofList kept).toList, isWhitespace letter = false := by
        rw [String.toList_ofList]
        intro letter member
        refine clear letter ?_
        rw [whole]
        exact List.mem_append_left lost member
      rw [trim_of_clear keptClear, String.toList_ofList]
      exact .inr (.inr ⟨lost, some, whole⟩)
  | replaced front back old new whole differs =>
      rw [whole] at clear
      obtain ⟨lead, tail, split, leadBlank, tailBlank⟩ :=
        trim_split (String.ofList (front ++ new :: back))
      rw [String.toList_ofList] at split
      have frontClear : ∀ letter ∈ front, isWhitespace letter = false :=
        fun letter member => clear letter (List.mem_append_left _ member)
      have backClear : ∀ letter ∈ back, isWhitespace letter = false :=
        fun letter member => clear letter
          (List.mem_append_right front (List.mem_cons_of_mem old member))
      rcases blank_ends split leadBlank tailBlank frontClear backClear with
        same | ⟨rfl, same⟩ | ⟨rfl, same⟩
      · exact .inl ⟨front, back, old, new, whole, differs, same⟩
      · exact .inr (.inl ⟨old, by rw [same]; exact whole⟩)
      · exact .inr (.inr ⟨[old], List.cons_ne_nil old [], by rw [same]; exact whole⟩)

/-! ## Bodies with a checksum -/

/-- The checksum of a body, as it is written. -/
def checksumText (P : Platform) (json : Bytes) : String :=
  b64 (toBeBytes (P.crc32 (asBytes (b64 json))))

theorem toList_checksummed (P : Platform) (json : Bytes) :
    (checksummed P json).toList = (b64 json).toList ++ '.' :: (checksumText P json).toList := by
  have dot : ".".toList = ['.'] := rfl
  rw [checksummed, String.toList_append, String.toList_append, dot, List.append_assoc]
  rfl

theorem length_checksumText (P : Platform) (json : Bytes) :
    (checksumText P json).toList.length = 6 := by
  have four (word : UInt32) : (toBeBytes word).length = 4 := rfl
  rw [checksumText, b64, Base64.encode, String.toList_ofList, Base64.length_encodeChars, four]

theorem dot_not_mem_checksumText (P : Platform) (json : Bytes) :
    '.' ∉ (checksumText P json).toList :=
  dot_not_mem_b64 _

theorem length_checksummed (P : Platform) (json : Bytes) :
    (checksummed P json).toList.length = (b64 json).toList.length + 7 := by
  rw [toList_checksummed, List.length_append, List.length_cons, length_checksumText]

theorem asBytes_append (front back : String) :
    asBytes (front ++ back) = asBytes front ++ asBytes back := by
  simp only [asBytes, String.toUTF8_eq_toByteArray, String.toByteArray_append,
    ByteArray.data_append, Array.toList_append]

theorem asBytes_singleton {letter : Char} (one : letter.utf8Size = 1) :
    ∃ byte, asBytes (String.ofList [letter]) = [byte] := by
  refine List.length_eq_one_iff.mp ?_
  rw [length_asBytes, Utf8.utf8ByteSize_ofList, Utf8.size, Utf8.size, one]

/-- Texts one letter of a byte apart are one byte apart. -/
theorem asBytes_apart
    {text other : String} {front back : List Char} {old new : Char}
    (whole : text.toList = front ++ old :: back) (oldOne : old.utf8Size = 1)
    (changed : other.toList = front ++ new :: back) (newOne : new.utf8Size = 1)
    (differs : new ≠ old) :
    ∃ bytes more oldByte newByte, asBytes text = bytes ++ oldByte :: more ∧
      asBytes other = bytes ++ newByte :: more ∧ newByte ≠ oldByte := by
  have parts (letter : Char) : String.ofList (front ++ letter :: back) =
      String.ofList front ++ (String.ofList [letter] ++ String.ofList back) := by
    rw [← String.ofList_append, ← String.ofList_append]
    rfl
  obtain ⟨oldByte, oldBytes⟩ := asBytes_singleton oldOne
  obtain ⟨newByte, newBytes⟩ := asBytes_singleton newOne
  refine ⟨asBytes (String.ofList front), asBytes (String.ofList back), oldByte, newByte, ?_, ?_, ?_⟩
  · rw [← @String.ofList_toList text, whole, parts, asBytes_append, asBytes_append, oldBytes]
    rfl
  · rw [← @String.ofList_toList other, changed, parts, asBytes_append, asBytes_append, newBytes]
    rfl
  · rintro rfl
    have same := asBytes_injective (newBytes.trans oldBytes.symm)
    have letters := congrArg String.toList same
    rw [String.toList_ofList, String.toList_ofList] at letters
    exact differs (List.cons.inj letters).1

theorem toBeBytes_injective {first second : UInt32} (same : toBeBytes first = toBeBytes second) :
    first = second := by
  have read := fromBeBytes_toBeBytes first
  rw [same, fromBeBytes_toBeBytes] at read
  exact (Option.some.inj read).symm

theorem utf8Size_of_mem_b64 {bytes : Bytes} {letter : Char} (member : letter ∈ (b64 bytes).toList) :
    letter.utf8Size = 1 := by
  rw [b64, Base64.encode, String.toList_ofList] at member
  exact Base64.utf8Size_of_mem_encodeChars member

/-- One letter of a body changes its checksum. -/
theorem checksumText_ne
    {P : Platform} (standard : P.crc32 = crc32) {json other : Bytes}
    {front back : List Char} {old new : Char}
    (body : (b64 json).toList = front ++ old :: back) (differs : new ≠ old)
    (changed : (b64 other).toList = front ++ new :: back) :
    checksumText P json ≠ checksumText P other := by
  intro same
  have oldOne : old.utf8Size = 1 :=
    utf8Size_of_mem_b64 (body ▸ List.mem_append_right front List.mem_cons_self)
  have newOne : new.utf8Size = 1 :=
    utf8Size_of_mem_b64 (changed ▸ List.mem_append_right front List.mem_cons_self)
  obtain ⟨bytes, more, oldByte, newByte, first, second, apart⟩ :=
    asBytes_apart body oldOne changed newOne differs
  have words := toBeBytes_injective (Base64.encode_injective same)
  rw [standard, first, second, crc32, crc32] at words
  exact Crc.crc32.check_ne_of_one_byte (by decide) apart bytes more
    (congrArg UInt32.toBitVec words).symm

/-- Two bodies with their checksums are not one letter apart. -/
theorem checksummed_not_apart
    {P : Platform} (standard : P.crc32 = crc32) {json other : Bytes}
    {front back : List Char} {old new : Char}
    (whole : (checksummed P json).toList = front ++ old :: back) (differs : new ≠ old) :
    (checksummed P other).toList ≠ front ++ new :: back := by
  intro changed
  have sized : (b64 json).toList.length = (b64 other).toList.length := by
    have one := length_checksummed P json
    have two := length_checksummed P other
    rw [whole, List.length_append, List.length_cons] at one
    rw [changed, List.length_append, List.length_cons] at two
    omega
  rw [toList_checksummed] at whole changed
  rcases apart_cases sized whole changed with
    ⟨rest, body, otherBody, same⟩ | ⟨middle, same, one, two⟩
  · exact checksumText_ne standard body differs otherBody
      (String.toList_inj.mp (List.cons.inj same).2)
  · have bodies : json = other := Base64.encode_injective (String.toList_inj.mp same)
    rw [bodies, two] at one
    exact differs (List.cons.inj (List.append_cancel_left one)).1

/-- No body with its checksum is a proper beginning of another one. -/
theorem checksummed_not_cut
    {P : Platform} {json other : Bytes} {lost : List Char}
    (whole : (checksummed P json).toList = (checksummed P other).toList ++ lost) : lost = [] := by
  rw [toList_checksummed, toList_checksummed, List.append_assoc, List.cons_append] at whole
  obtain ⟨-, -, checksum⟩ :=
    (List.append_cons_inj_of_notMem (dot_not_mem_b64 json) (dot_not_mem_checksumText P json)).mp
      whole
  have length := congrArg List.length checksum
  rw [List.length_append, length_checksumText, length_checksumText] at length
  exact List.length_eq_zero_iff.mp (by omega)

/-! ## Tokens -/

/-- The letters that all tokens begin with. -/
def Begins (letters : List Char) : Prop :=
  ∃ more, letters = 'a' :: 'g' :: more

theorem begins_append {beginning : String} (begins : Begins beginning.toList) (rest : String) :
    Begins (beginning ++ rest).toList := by
  obtain ⟨more, letters⟩ := begins
  exact ⟨more ++ rest.toList, by rw [String.toList_append, letters]; rfl⟩

/-- Without its first letter a token does not begin like one. -/
theorem begins_not_shifted {letters shifted : List Char} {old : Char}
    (begins : Begins letters) (shiftedBegins : Begins shifted) : letters ≠ old :: shifted := by
  rintro rfl
  obtain ⟨more, same⟩ := begins
  obtain ⟨others, rfl⟩ := shiftedBegins
  have second := (List.cons.inj (List.cons.inj same).2).1
  exact absurd second (by decide)

section Damaged

variable {P : Platform} {beginning damaged : String} {json other : Bytes}

theorem clear_append {rest : String} (beginningClear : beginning.toList.any isWhitespace = false)
    (restClear : Clear rest.toList) : Clear (beginning ++ rest).toList := by
  intro letter member
  rw [String.toList_append, List.mem_append] at member
  rcases member with begins | follows
  · simpa using List.any_eq_false.mp beginningClear letter begins
  · exact restClear letter follows

/-- A damaged token is not a token of the same format. -/
theorem trim_damaged_ne
    (standard : P.crc32 = crc32) (begins : Begins beginning.toList)
    (clear : beginning.toList.any isWhitespace = false)
    (damage : Damage (beginning ++ checksummed P json) damaged) :
    trim damaged ≠ beginning ++ checksummed P other := by
  intro token
  have textClear := clear_append clear fun _ => @checksummed_clear P json _
  rcases trim_of_damage textClear damage with
    ⟨front, back, old, new, whole, differs, changed⟩ | ⟨old, shifted⟩ | ⟨lost, some, whole⟩
  · rw [token, String.toList_append] at changed
    rw [String.toList_append] at whole
    rcases apart_cases rfl whole changed with ⟨rest, one, two, -⟩ | ⟨middle, -, one, two⟩
    · rw [one] at two
      exact differs (List.cons.inj (List.append_cancel_left two)).1.symm
    · exact checksummed_not_apart standard one differs two
  · rw [token] at shifted
    exact begins_not_shifted (begins_append begins _) (begins_append begins _) shifted
  · rw [token, String.toList_append, String.toList_append, List.append_assoc] at whole
    exact some (checksummed_not_cut (List.append_cancel_left whole))

/-- A damaged token of the second version is not a token of the first one. -/
theorem trim_damaged_ne_first
    (damage : Damage (TOKEN_PREFIX_V2 ++ checksummed P json) damaged) :
    trim damaged ≠ TOKEN_PREFIX_V1 ++ b64 other := by
  intro token
  have beginningClear : TOKEN_PREFIX_V2.toList.any isWhitespace = false := by decide
  have textClear := clear_append beginningClear fun _ => @checksummed_clear P json _
  have versions : TOKEN_PREFIX_V2.toList ≠ TOKEN_PREFIX_V1.toList := by decide
  have sized : TOKEN_PREFIX_V2.toList.length = TOKEN_PREFIX_V1.toList.length := by decide
  rcases trim_of_damage textClear damage with
    ⟨front, back, old, new, whole, differs, changed⟩ | ⟨old, shifted⟩ | ⟨lost, some, whole⟩
  · rw [token, String.toList_append] at changed
    rw [String.toList_append] at whole
    rcases apart_cases sized whole changed with ⟨rest, -, -, same⟩ | ⟨middle, same, -, -⟩
    · refine dot_not_mem_b64 other ?_
      rw [← same, toList_checksummed]
      exact List.mem_append_right _ List.mem_cons_self
    · exact versions same
  · rw [token] at shifted
    exact begins_not_shifted (begins_append ⟨_, rfl⟩ _) (begins_append ⟨_, rfl⟩ _) shifted
  · rw [token, String.toList_append, String.toList_append, List.append_assoc] at whole
    exact versions (List.append_inj_left whole sized)

end Damaged

theorem stripPrefix_eq_some {beginning text rest : String}
    (strips : stripPrefix beginning text = some rest) : text = beginning ++ rest := by
  rw [stripPrefix] at strips
  split at strips
  · next starts =>
      obtain ⟨more, whole⟩ := starts
      cases strips
      refine String.toList_inj.mp ?_
      rw [String.toList_append, String.toList_ofList, ← whole, ← String.length_toList,
        List.drop_left]
  · cases strips

/-- What is decoded as an identity is a token of one of the versions. -/
theorem IdentityToken.trim_of_decode
    {P : Platform} {text : String} {token : IdentityToken}
    (decoded : IdentityToken.decode P text = .ok token) :
    (∃ json, trim text = TOKEN_PREFIX_V2 ++ checksummed P json) ∨
      ∃ json, trim text = TOKEN_PREFIX_V1 ++ b64 json := by
  rw [IdentityToken.decode] at decoded
  split at decoded
  · next rest strips =>
      simp only [IdentityToken.decodeV2, bind_eq_ok] at decoded
      obtain ⟨json, accepted, -⟩ := decoded
      rw [stripPrefix_eq_some strips, checkedBody_eq_ok.mp accepted]
      exact .inl ⟨json, rfl⟩
  · split at decoded
    · next rest strips =>
        simp only [IdentityToken.decodeV1, bind_eq_ok, okOr_eq_ok] at decoded
        obtain ⟨json, opened, -⟩ := decoded
        rw [stripPrefix_eq_some strips, Base64.decode_eq_some.mp opened]
        exact .inr ⟨json, rfl⟩
    · cases decoded

theorem AuthorityToken.trim_of_decode
    {P : Platform} {text : String} {token : AuthorityToken}
    (decoded : AuthorityToken.decode P text = .ok token) :
    ∃ json, trim text = AUTH_TOKEN_PREFIX ++ checksummed P json := by
  simp only [AuthorityToken.decode, bind_eq_ok, okOr_eq_ok] at decoded
  obtain ⟨rest, strips, json, accepted, -⟩ := decoded
  rw [stripPrefix_eq_some strips, checkedBody_eq_ok.mp accepted]
  exact ⟨json, rfl⟩

/-- No damaged token of an identity or an authority is accepted. -/
theorem damaged_token_rejected {P : Platform} (standard : P.crc32 = crc32) (damaged : String) :
    (∀ token : IdentityToken, Damage (token.encode P) damaged →
        ∃ e, IdentityToken.decode P damaged = .error e) ∧
      ∀ token : AuthorityToken, Damage (token.encode P) damaged →
        ∃ e, AuthorityToken.decode P damaged = .error e := by
  refine ⟨?_, ?_⟩
  · intro token damage
    cases decoded : IdentityToken.decode P damaged with
    | error e => exact ⟨e, rfl⟩
    | ok other =>
        rcases IdentityToken.trim_of_decode decoded with ⟨json, second⟩ | ⟨json, first⟩
        · exact absurd second (trim_damaged_ne standard ⟨_, rfl⟩ (by decide) damage)
        · exact absurd first (trim_damaged_ne_first damage)
  · intro token damage
    cases decoded : AuthorityToken.decode P damaged with
    | error e => exact ⟨e, rfl⟩
    | ok other =>
        obtain ⟨json, same⟩ := AuthorityToken.trim_of_decode decoded
        exact absurd same (trim_damaged_ne standard ⟨_, rfl⟩ (by decide) damage)

/-- A token whose first letter is another one. -/
def Reference.damagedToken : String :=
  String.ofList ([] ++ 'b' :: (alice.token.encode tokenPlatform).toList.tail)

theorem damaged_token_rejected_first :
    ∃ e, IdentityToken.decode Reference.tokenPlatform Reference.damagedToken = .error e := by
  have whole : (Reference.alice.token.encode Reference.tokenPlatform).toList =
      [] ++ 'a' :: (Reference.alice.token.encode Reference.tokenPlatform).toList.tail := by
    obtain ⟨more, letters⟩ := @begins_append TOKEN_PREFIX_V2 ⟨_, rfl⟩
      (checksummed Reference.tokenPlatform _)
    rw [IdentityToken.encode, letters, List.tail_cons, List.nil_append]
  exact (damaged_token_rejected rfl Reference.damagedToken).1 Reference.alice.token
    (.replaced [] _ 'a' 'b' whole (by decide))

end AgentMsg
