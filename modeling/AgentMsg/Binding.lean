import AgentMsg.Lib.Joined
import AgentMsg.RoundTrip

/-!
# What a ciphertext is bound to

A body is sealed with the routing fields of its message as associated data, joined with
a separator that the fields may contain.  So with an ideal cipher a ciphertext opens in
every message whose fields join to the same text, and that is the same message exactly
when the fields are free of the separator.
-/

namespace AgentMsg

open Checked

/-- Only the key, the nonce and the associated data that a text was sealed with open it. -/
def Platform.OpensExactly (P : Platform) : Prop :=
  ∀ key nonce data text otherKey otherNonce otherData,
    P.aeadOpen otherKey otherNonce otherData (P.aeadSeal key nonce data text) ≠ none →
      otherKey = key ∧ otherNonce = nonce ∧ otherData = data

/-! ## Routing fields -/

/-- The fields that the associated data is made of. -/
def Inner.route (inner : Inner) : List (List Char) :=
  [inner.id.toList, inner.sender.toList, inner.recipient.toList, inner.ts.toList]

theorem toList_aad (inner : Inner) : (aad inner).toList = ['|'].intercalate inner.route := by
  have bar : "|".toList = ['|'] := rfl
  simp only [aad, Inner.route, String.toList_append, bar, List.intercalate_cons_cons,
    List.intercalate_singleton, List.append_assoc]

theorem aad_eq_iff {first second : Inner} :
    aad first = aad second ↔ ['|'].intercalate first.route = ['|'].intercalate second.route := by
  rw [← toList_aad, ← toList_aad, String.toList_inj]

/-- The messages have the same routing fields. -/
structure SameRoute (first second : Inner) : Prop where
  id : first.id = second.id
  sender : first.sender = second.sender
  recipient : first.recipient = second.recipient
  ts : first.ts = second.ts

theorem sameRoute_iff {first second : Inner} :
    SameRoute first second ↔ first.route = second.route := by
  constructor
  · rintro ⟨id, sender, recipient, ts⟩
    rw [Inner.route, id, sender, recipient, ts, Inner.route]
  · intro same
    simp only [Inner.route, List.cons.injEq, String.toList_inj] at same
    exact ⟨same.1, same.2.1, same.2.2.1, same.2.2.2.1⟩

/-- A message with other routing fields. -/
def Inner.rerouted (inner : Inner) (id sender recipient ts : List Char) : Inner :=
  { inner with
    id := String.ofList id, sender := String.ofList sender,
    recipient := String.ofList recipient, ts := String.ofList ts }

@[simp]
theorem Inner.route_rerouted (inner : Inner) (id sender recipient ts : List Char) :
    (inner.rerouted id sender recipient ts).route = [id, sender, recipient, ts] := by
  simp only [route, rerouted, String.toList_ofList]

/-! ## Messages with one ciphertext -/

/-- The message has the encapsulated key, the nonce and the ciphertext of another. -/
def Inner.Carries (other inner : Inner) : Prop :=
  ∃ enc otherEnc, inner.enc = some enc ∧ other.enc = some otherEnc ∧
    otherEnc.kemCt = enc.kemCt ∧ otherEnc.nonce = enc.nonce ∧ other.body = inner.body

/-- The ciphertext of a message under the routing fields of another, without a grant. -/
def Inner.carriedBy (inner other : Inner) : Inner :=
  { inner with
    id := other.id, sender := other.sender, recipient := other.recipient, ts := other.ts
    grant := none }

theorem aad_carriedBy (inner other : Inner) : aad (inner.carriedBy other) = aad other :=
  rfl

theorem Inner.carries_carriedBy {inner : Inner} {enc : EncInfo} (encrypted : inner.enc = some enc)
    (other : Inner) : (inner.carriedBy other).Carries inner :=
  ⟨enc, enc, encrypted, encrypted, rfl, rfl, rfl⟩

/-- Every message that is decrypted with the ciphertext of this one, from a sender with
such a name, has the same routing fields. -/
def Binds (P : Platform) (names : String → Prop) (inner : Inner) : Prop :=
  ∀ other : Inner, other.Carries inner → names other.sender →
    ∀ me trust clock freshnessSecs maxPayload ri out,
      finalize P other me trust clock freshnessSecs maxPayload ri = .ok out →
      SameRoute other inner

section Sealed

variable {P : Platform} {identity receiver : Identity} {draw : Draw} {opts : BuildOpts}
  {inner : Inner} {wrapper : Wrapper} {kemCt ss : Bytes}

/-- A ciphertext opens under its associated data only. -/
theorem aad_of_decrypted
    {ek : Bytes} {other out : Inner} {ri : RejectReason → RejectInfo} (exactly : P.OpensExactly)
    (carries : other.Carries (sealedDraft P draw opts ek kemCt ss (draft identity draw opts)))
    (decrypted : decryptBody P receiver other ri = .ok out) :
    aad other = aad (draft identity draw opts) := by
  obtain ⟨enc, otherEnc, _, encrypted, _, _, body⟩ := carries
  simp only [decryptBody, encrypted, bind_eq_ok, okOr_eq_ok, ensure_eq_ok, body, sealedDraft,
    unb64_b64, Option.some.injEq] at decrypted
  obtain ⟨_, _, _, _, otherSs, _, otherNonce, _, _, _, _, rfl, text, opened, _⟩ := decrypted
  have found := exactly _ _ _ _ _ _ _ (Option.ne_none_iff_exists'.mpr ⟨text, opened⟩)
  exact asBytes_injective found.2.2

/-- A ciphertext is decrypted under other routing fields that join to the same text. -/
theorem finalize_carriedBy
    (decapsulates : receiver.Decapsulates P) (opens : P.OpensSealed)
    (nonce : draw.aeadNonce.length = 12)
    (encapsulated : P.kemEncapsulate receiver.kemEk draw.kemRandomness = some (kemCt, ss))
    {other : Inner} (same : aad other = aad (draft identity draw opts)) :
    ∃ me trust clock freshnessSecs maxPayload ri out,
      finalize P
        ((sealedDraft P draw opts receiver.kemEk kemCt ss (draft identity draw opts)).carriedBy
          other) me trust clock freshnessSecs maxPayload ri = .ok out := by
  obtain ⟨carrier, isCarrier⟩ : ∃ carrier, carrier =
      (sealedDraft P draw opts receiver.kemEk kemCt ss (draft identity draw opts)).carriedBy
        other := ⟨_, rfl⟩
  have data : aad carrier = aad (draft identity draw opts) := by
    rw [isCarrier, aad_carriedBy, same]
  have decrypted : decryptBody P receiver carrier (fun reason => { reason }) =
      .ok { carrier with body := opts.body, ctype := opts.ctype } := by
    simp only [decryptBody, data]
    simp only [isCarrier, Inner.carriedBy, sealedDraft, bind_eq_ok, okOr_eq_ok, ensure_eq_ok,
      pure_eq_ok]
    exact ⟨(), rfl, kemCt, unb64_b64 _, ss, decapsulates encapsulated, draw.aeadNonce,
      unb64_b64 _, (), nonce, _, unb64_b64 _, _, opens _ _ _ _, opts.body, fromUtf8_asBytes _,
      rfl⟩
  have bare : carrier.grant = none := by
    rw [isCarrier]
    rfl
  rw [← isCarrier]
  refine ⟨receiver, {}, ⟨0, 0, 0⟩, 0, carrier.body.utf8ByteSize, fun reason => { reason },
    { carrier with body := opts.body, ctype := opts.ctype }, ?_⟩
  simp only [finalize, bind_eq_ok, ensure_eq_ok, pure_eq_ok]
  refine ⟨(), Nat.le_refl _, (), if_pos (Int.le_refl 0), _, decrypted, (), ?_, rfl⟩
  rw [checkGrant, bare]

/-- A ciphertext is bound to its routing fields when no others join to the same text. -/
theorem binds_iff {names : String → Prop}
    (decapsulates : receiver.Decapsulates P) (opens : P.OpensSealed)
    (exactly : P.OpensExactly) (nonce : draw.aeadNonce.length = 12)
    (addressed : opts.encryptTo = some receiver.kemEk)
    (built : build P identity draw opts = .ok (inner, wrapper)) :
    Binds P names inner ↔
      ∀ other : Inner, names other.sender → aad other = aad (draft identity draw opts) →
        SameRoute other (draft identity draw opts) := by
  obtain ⟨_, ⟨clear, _⟩ | ⟨ek, kemCt, ss, key, _, encapsulated, rfl⟩⟩ := build_ok built
  · rw [addressed] at clear
    cases clear
  · obtain rfl := Option.some.inj (addressed.symm.trans key)
    constructor
    · intro binds other named same
      obtain ⟨me, trust, clock, freshnessSecs, maxPayload, ri, out, accepted⟩ :=
        finalize_carriedBy decapsulates opens nonce encapsulated same
      have found := binds _ (Inner.carries_carriedBy rfl other) named me trust clock freshnessSecs
        maxPayload ri out accepted
      exact ⟨found.id, found.sender, found.recipient, found.ts⟩
    · intro unique other carries named me trust clock freshnessSecs maxPayload ri out accepted
      simp only [finalize, bind_eq_ok] at accepted
      obtain ⟨_, _, _, _, opened, decrypted, _⟩ := accepted
      have same := unique other named (aad_of_decrypted exactly carries decrypted)
      exact ⟨same.id, same.sender, same.recipient, same.ts⟩

end Sealed

/-! ## Fields that join uniquely -/

/-- The fields of a message can be replaced by others that join to the same text only
by the same ones. -/
theorem eq_of_rerouted (names : String → Prop) {inner : Inner}
    (unique : ∀ other : Inner, names other.sender → aad other = aad inner →
      SameRoute other inner)
    {id sender recipient ts : List Char} (named : names (String.ofList sender))
    (same : ['|'].intercalate [id, sender, recipient, ts] = ['|'].intercalate inner.route) :
    [id, sender, recipient, ts] = inner.route := by
  rw [← inner.route_rerouted, ← aad_eq_iff] at same
  rw [← inner.route_rerouted, ← sameRoute_iff]
  exact unique _ named same

/-- No other routing fields join to the same text exactly when these are free of the
separator. -/
theorem aad_unique_iff (inner : Inner) :
    (∀ other : Inner, True → aad other = aad inner → SameRoute other inner) ↔
      ∀ field ∈ inner.route, '|' ∉ field := by
  have two : 2 ≤ inner.route.length := by
    rw [Inner.route]
    exact Nat.le_add_left 2 2
  rw [← Joined.joins_uniquely_iff two]
  constructor
  · intro unique others length same
    obtain ⟨id, sender, recipient, ts, rfl⟩ := List.length_eq_four.mp length
    exact eq_of_rerouted (fun _ => True) unique trivial same
  · intro unique other _ same
    exact sameRoute_iff.mpr (unique other.route rfl (aad_eq_iff.mp same))

/-- Names that pass the validation. -/
def ValidName (name : String) : Prop :=
  validateName name = .ok ()

/-- A part of a valid name is a valid name. -/
theorem ValidName.part {name : String} {part : List Char}
    (valid : ValidName name) (some : part ≠ []) (within : part ⊆ name.toList) :
    ValidName (String.ofList part) := by
  simp only [ValidName, validateName, bind_eq_ok, ensure_eq_ok, String.toList_ofList] at valid ⊢
  obtain ⟨_, _, _, clear, plain⟩ := valid
  refine ⟨(), ?_, (), fun member => clear (within member), ?_⟩
  · intro empty
    exact some (String.ofList_eq_empty_iff.mp empty)
  · rw [List.any_eq_false] at plain ⊢
    exact fun letter member => plain letter (within member)

section Named

variable {inner : Inner}

/-- A separator in the recipient can become the one before the timestamp. -/
theorem recipient_clear
    (unique : ∀ other : Inner, ValidName other.sender → aad other = aad inner →
      SameRoute other inner)
    (valid : ValidName inner.sender) : '|' ∉ inner.recipient.toList := by
  intro contains
  obtain ⟨before, after, whole⟩ := List.append_of_mem contains
  have same : ['|'].intercalate [inner.id.toList, inner.sender.toList, before,
      after ++ '|' :: inner.ts.toList] = ['|'].intercalate inner.route := by
    simp only [Inner.route, whole, Joined.intercalate_four, List.append_assoc, List.cons_append]
  have equal := eq_of_rerouted ValidName unique (by rwa [String.ofList_toList]) same
  simp only [Inner.route, List.cons.injEq, whole] at equal
  exact Joined.ne_append_cons before after equal.2.2.1

/-- A separator in the sender can become the one before or behind it, unless nothing is
left of the name. -/
theorem sender_clear
    (unique : ∀ other : Inner, ValidName other.sender → aad other = aad inner →
      SameRoute other inner)
    (valid : ValidName inner.sender) (contains : '|' ∈ inner.sender.toList) :
    inner.sender = "|" := by
  obtain ⟨before, after, whole⟩ := List.append_of_mem contains
  have part (name : List Char) (some : name ≠ []) (within : name ⊆ before ++ '|' :: after) :
      ValidName (String.ofList name) := by
    rw [← whole] at within
    exact valid.part some within
  cases before with
  | nil =>
      by_contra different
      have some : after ≠ [] := by
        rintro rfl
        exact different (String.toList_inj.mp whole)
      have same : ['|'].intercalate [inner.id.toList ++ ['|'], after, inner.recipient.toList,
          inner.ts.toList] = ['|'].intercalate inner.route := by
        simp only [Inner.route, whole, Joined.intercalate_four, List.append_assoc,
          List.cons_append, List.nil_append]
      have named := part after some (List.subset_cons_self _ _)
      have equal := eq_of_rerouted ValidName unique named same
      simp only [Inner.route, List.cons.injEq] at equal
      exact absurd equal.1.symm (Joined.ne_append_cons _ [])
  | cons letter before =>
      have same : ['|'].intercalate [inner.id.toList, letter :: before,
          after ++ '|' :: inner.recipient.toList, inner.ts.toList] =
            ['|'].intercalate inner.route := by
        simp only [Inner.route, whole, Joined.intercalate_four, List.append_assoc,
          List.cons_append]
      have named := part (letter :: before) (List.cons_ne_nil _ _) (List.subset_append_left _ _)
      have equal := eq_of_rerouted ValidName unique named same
      simp only [Inner.route, whole, List.cons.injEq] at equal
      exact absurd equal.2.1 (Joined.ne_append_cons _ after)

/-- From senders with a valid name, when the id and the timestamp are free of the
separator. -/
theorem aad_unique_named_iff (id : '|' ∉ inner.id.toList) (ts : '|' ∉ inner.ts.toList)
    (valid : ValidName inner.sender) :
    (∀ other : Inner, ValidName other.sender → aad other = aad inner → SameRoute other inner) ↔
      '|' ∉ inner.recipient.toList ∧ ('|' ∉ inner.sender.toList ∨ inner.sender = "|") := by
  constructor
  · intro unique
    refine ⟨recipient_clear unique valid, ?_⟩
    by_cases contains : '|' ∈ inner.sender.toList
    · exact Or.inr (sender_clear unique valid contains)
    · exact Or.inl contains
  · rintro ⟨recipient, clear | bar⟩ other named same
    · have free : ∀ field ∈ inner.route, '|' ∉ field := by
        simp only [Inner.route, List.forall_mem_cons]
        exact ⟨id, clear, recipient, ts, List.forall_mem_nil _⟩
      exact (aad_unique_iff inner).mpr free other trivial same
    · have letters : inner.sender.toList = ['|'] := congrArg String.toList bar
      have some : other.sender.toList ≠ [] := fun empty =>
        (validateName_ok named).1 (String.toList_eq_nil_iff.mp empty)
      rw [aad_eq_iff, Inner.route, Inner.route, letters, Joined.intercalate_four,
        Joined.intercalate_four] at same
      obtain ⟨sameId, sender, sameRecipient, sameTs⟩ :=
        Joined.eq_of_separator_second id recipient ts some same
      exact ⟨String.toList_inj.mp sameId, String.toList_inj.mp (sender.trans letters.symm),
        String.toList_inj.mp sameRecipient, String.toList_inj.mp sameTs⟩

end Named

/-! ## When a ciphertext is bound -/

/-- A ciphertext is bound to the id, the sender, the recipient and the timestamp of its
message exactly when none of them contains the separator.  When the id and the timestamp
do not, and every sender has a valid name, a sender that is named by the separator alone
is bound as well. -/
theorem routing_bound_iff
    {P : Platform} {identity receiver : Identity} {draw : Draw} {opts : BuildOpts}
    {inner : Inner} {wrapper : Wrapper} (decapsulates : receiver.Decapsulates P)
    (opens : P.OpensSealed) (exactly : P.OpensExactly) (nonce : draw.aeadNonce.length = 12)
    (addressed : opts.encryptTo = some receiver.kemEk)
    (built : build P identity draw opts = .ok (inner, wrapper)) :
    (Binds P (fun _ => True) inner ↔
        '|' ∉ draw.id.toList ∧ '|' ∉ identity.name.toList ∧ '|' ∉ opts.recipient.toList ∧
          '|' ∉ draw.ts.toList) ∧
      ('|' ∉ draw.id.toList → '|' ∉ draw.ts.toList → ValidName identity.name →
        (Binds P ValidName inner ↔
          '|' ∉ opts.recipient.toList ∧
            ('|' ∉ identity.name.toList ∨ identity.name = "|"))) := by
  constructor
  · rw [binds_iff decapsulates opens exactly nonce addressed built, aad_unique_iff]
    simp only [Inner.route, draft, List.forall_mem_cons, List.not_mem_nil, false_imp_iff,
      implies_true, and_true]
  · intro id ts valid
    rw [binds_iff decapsulates opens exactly nonce addressed built]
    exact @aad_unique_named_iff (draft identity draw opts) id ts valid

/-! ## A ciphertext that moves -/

namespace Ideal

/-- The length of a text in unary, and the text. -/
def counted (bytes : Bytes) : Bytes :=
  List.replicate bytes.length 1 ++ 0 :: bytes

theorem counted_append_inj {first second rest more : Bytes}
    (same : counted first ++ rest = counted second ++ more) : first = second ∧ rest = more := by
  have unary (count : Nat) : (0 : UInt8) ∉ List.replicate count 1 := by
    intro member
    exact absurd (List.eq_of_mem_replicate member) (by decide)
  rw [counted, counted, List.append_assoc, List.append_assoc, List.cons_append,
    List.cons_append] at same
  rcases Joined.append_cons_cases (unary _) same with ⟨counts, texts⟩ | ⟨between, whole, -⟩
  · have length := congrArg List.length counts
    rw [List.length_replicate, List.length_replicate] at length
    exact List.append_inj texts length
  · refine absurd ?_ (unary first.length)
    rw [whole]
    exact List.mem_append_right _ List.mem_cons_self

def heading (key nonce data : Bytes) : Bytes :=
  counted key ++ (counted nonce ++ counted data)

/-- A platform whose cipher writes down what a text is sealed with. -/
def platform : Platform :=
  { Reference.platform {} with
    aeadSeal := fun key nonce data text => heading key nonce data ++ text
    aeadOpen := fun key nonce data sealed =>
      if heading key nonce data <+: sealed then some (sealed.drop (heading key nonce data).length)
      else none }

theorem opensSealed : platform.OpensSealed := by
  intro key nonce data text
  exact (if_pos (List.prefix_append _ _)).trans (congrArg some List.drop_left)

theorem opensExactly : platform.OpensExactly := by
  intro key nonce data text otherKey otherNonce otherData opened
  have begins : heading otherKey otherNonce otherData <+: heading key nonce data ++ text := by
    by_contra otherwise
    exact opened (if_neg otherwise)
  obtain ⟨rest, whole⟩ := begins
  rw [heading, heading, List.append_assoc, List.append_assoc, List.append_assoc,
    List.append_assoc] at whole
  obtain ⟨keys, nonces⟩ := counted_append_inj whole
  obtain ⟨sameNonce, datas⟩ := counted_append_inj nonces
  exact ⟨keys, sameNonce, (counted_append_inj datas).1⟩

theorem kemEncapsulate_eq : platform.kemEncapsulate = (Reference.platform {}).kemEncapsulate :=
  rfl

theorem kemDecapsulate_eq : platform.kemDecapsulate = (Reference.platform {}).kemDecapsulate :=
  rfl

theorem decapsulates (name : String) (byte : UInt8) :
    (Reference.identity name byte).Decapsulates platform := by
  intro randomness kemCt ss encapsulated
  rw [kemEncapsulate_eq] at encapsulated
  rw [kemDecapsulate_eq]
  exact Reference.decapsulates {} name byte encapsulated

/-- What is sealed to Bob is built. -/
theorem exists_build
    (identity : Identity) (draw : Draw) {opts : BuildOpts}
    (key : opts.encryptTo = some Reference.bob.kemEk) (direct : opts.recipient ≠ BROADCAST) :
    ∃ inner wrapper, build platform identity draw opts = .ok (inner, wrapper) := by
  have encapsulated := Reference.encapsulates {} "bob" 2 draw.kemRandomness
  rw [← kemEncapsulate_eq] at encapsulated
  exact ⟨_, _, build_sealed key direct encapsulated⟩

end Ideal

/-- The greeting of alice to bob is bound to its routing fields. -/
theorem routing_bound_iff_greeting :
    ∃ inner wrapper,
      build Ideal.platform Reference.alice Reference.draw greeting = .ok (inner, wrapper) ∧
        Binds Ideal.platform (fun _ => True) inner ∧ Binds Ideal.platform ValidName inner := by
  obtain ⟨inner, wrapper, built⟩ :=
    @Ideal.exists_build Reference.alice Reference.draw greeting rfl (by decide)
  have bound := routing_bound_iff (Ideal.decapsulates "bob" 2) Ideal.opensSealed
    Ideal.opensExactly rfl rfl built
  refine ⟨inner, wrapper, built, bound.1.mpr ⟨by decide, by decide, by decide, by decide⟩, ?_⟩
  exact (bound.2 (by decide) (by decide) rfl).mpr ⟨by decide, Or.inl (by decide)⟩

/-- A note to an agent whose name has the separator, sealed to Bob's key. -/
def barred : BuildOpts :=
  { recipient := "b|c", ctype := CTYPE_TEXT, body := "hello",
    encryptTo := some Reference.bob.kemEk }

/-- What a sends to b|c is decrypted as a message that a|b sends to c. -/
theorem ciphertext_moves :
    ¬ ∀ (P : Platform) (identity : Identity) (draw : Draw) (opts : BuildOpts) (inner : Inner)
        (wrapper : Wrapper),
        P.OpensExactly → ValidName identity.name → ValidName opts.recipient →
        build P identity draw opts = .ok (inner, wrapper) → Binds P ValidName inner := by
  intro bound
  obtain ⟨inner, wrapper, built⟩ :=
    @Ideal.exists_build (Reference.identity "a" 1) Reference.draw barred rfl (by decide)
  have binds := bound _ (Reference.identity "a" 1) _ barred _ _ Ideal.opensExactly rfl rfl built
  rw [binds_iff (Ideal.decapsulates "bob" 2) Ideal.opensSealed Ideal.opensExactly rfl rfl built]
    at binds
  have same := binds ((draft (Reference.identity "a" 1) Reference.draw barred).rerouted
    Reference.draw.id.toList ['a', '|', 'b'] ['c'] Reference.draw.ts.toList) rfl ?_
  · exact absurd same.sender (by decide)
  · rw [aad_eq_iff, Inner.route_rerouted]
    decide

end AgentMsg
