import VoceChat.Credentials.Kinds

/-!
# No credential passes for another kind

`Speaks` says which contents a kind's parser can read. The contents of the four kinds do not meet
what the others speak (`kind_of_speaks`): the first bytes differ, except for the two kinds of keys,
where the names of the fields do. And no string that was issued is taken apart into anything but its
own content (`eq_content_of_takeApart_issue`). So no parser accepts a credential of another kind,
nor any string that it takes apart into the content of one (`not_accepts`). The MAC does not matter
for that; with it, no string that carries the MAC of a credential is accepted as another kind either
(`not_accepts_of_mac`).

`accepts_issue` is the other side: each parser accepts what was issued for it, until it expires.
-/

namespace VoceChat

open Machine JsonText

namespace CredentialFormats

variable (f : CredentialFormats) {content bs : Bytes} {b : Byte}

/-! ### How contents begin -/

theorem fromUtf8_text (s : String) : fromUtf8 (text s) = some s := by
  rw [text, fromUtf8_utf8, String.ofList_toList]

/-- A magic link begins with the number of its variant. -/
theorem head_serialize (token : MagicLinkToken) :
    token.serialize.head? = some 0 ∨ token.serialize.head? = some 1 := by
  cases token with
  | register => exact .inl rfl
  | login => exact .inr rfl

/-- A token begins with the first character of an object in base64. -/
theorem head_signingInput (fields : TokenContent) :
    (utf8 (f.signingInput fields)).head? = some (code 'e') := by
  have hheader : ∃ cs, Base64.encode tokenHeader = 'e' :: cs := ⟨_, rfl⟩
  obtain ⟨cs, hcs⟩ := hheader
  rw [signingInput, hcs, List.cons_append, utf8_cons (by decide), List.head?_cons]

/-- No other byte begins a magic link. -/
theorem head_of_deserialize {token : MagicLinkToken}
    (h : MagicLinkToken.deserialize content = some token) :
    content.head? = some 0 ∨ content.head? = some 1 := by
  obtain ⟨⟨_, rest⟩, hread, -⟩ := Option.map_eq_some_iff.1 h
  obtain ⟨⟨variant, rest'⟩, hvariant, hread⟩ := Option.bind_eq_some_iff.1 hread
  have hhead := Bincode.head_of_readU32 hvariant
  obtain ⟨b, hb, hval⟩ := Option.map_eq_some_iff.1 hhead
  rw [hb]
  dsimp only at hread
  split at hread
  · rename_i hzero
    rw [hzero] at hval
    exact .inl (congrArg some (Fin.ext hval))
  · split at hread
    · rename_i hone
      rw [hone] at hval
      exact .inr (congrArg some (Fin.ext hval))
    · cases hread

/-- Neither the beginning of a magic link nor that of a token begins a JSON text. -/
theorem parse_eq_none (h : b ∈ [0, 1, code 'e']) : parse (b :: bs) = none := by
  have hbyte : ∀ b ∈ [0, 1, code 'e'], isSpace b = false ∧ isDigit b = false ∧
      b ∉ [code '"', code '{', code '[', code 't', code 'f', code 'n', code '-'] := by
    decide +kernel
  obtain ⟨hspace, hdigit, hother⟩ := hbyte b h
  exact parse_of_begins_nothing hspace hdigit hother

theorem head_of_decode {header claims : List Char} (h : (Base64.decode header).isSome = true)
    (hb : (utf8 (header ++ '.' :: claims)).head? = some b) : 45 ≤ b.val ∧ b.val ≤ 122 := by
  -- The header may be empty; then the dot comes first.
  obtain ⟨c, cs, hcons, hc⟩ : ∃ c cs, header ++ '.' :: claims = c :: cs ∧
      45 ≤ c.toNat ∧ c.toNat ≤ 122 := by
    cases header with
    | nil => exact ⟨'.', claims, rfl, by decide⟩
    | cons c header =>
      obtain ⟨bs, hbs⟩ := Option.isSome_iff_exists.1 h
      exact ⟨c, _, rfl, Base64.toNat_of_value_isSome
        (Base64.value_isSome_of_decode hbs c List.mem_cons_self)⟩
  rw [hcons, utf8_cons (by omega), List.head?_cons] at hb
  obtain rfl := Option.some.inj hb
  rw [code, Fin.val_ofNat]
  omega

/-! ### Keys -/

theorem parse_apiKeyContent (uid : ℤ) (nonce : String) :
    parse (apiKeyContent uid nonce) =
      some (.object (printedMembers [intMember (ascii "uid") uid,
        stringMember (ascii "nonce") (text nonce)])) := by
  refine @parse_printObject [intMember (ascii "uid") uid, stringMember (ascii "nonce") (text nonce)]
    (List.cons_ne_nil _ _) ?_
  rw [List.forall_mem_cons, List.forall_mem_singleton]
  exact ⟨prints_int uid, prints_string (text nonce)⟩

theorem parse_thirdPartyContent (info : ThirdPartyLoginInfo) :
    parse (f.thirdPartyContent info) =
      some (.object (printedMembers [stringMember (ascii "userid") (text info.userid),
        stringMember (ascii "username") (text info.username),
        stringMember (ascii "expired_at") (f.showTime info.expiredAt)])) := by
  refine @parse_printObject [stringMember (ascii "userid") (text info.userid),
    stringMember (ascii "username") (text info.username),
    stringMember (ascii "expired_at") (f.showTime info.expiredAt)] (List.cons_ne_nil _ _) ?_
  rw [List.forall_mem_cons, List.forall_mem_cons, List.forall_mem_singleton]
  exact ⟨prints_string _, prints_string _, prints_string _⟩

theorem readApiKey_thirdPartyContent (info : ThirdPartyLoginInfo) :
    readApiKey (f.thirdPartyContent info) = none := by
  have hmissing : ascii "uid" ∉ [ascii "userid", ascii "username", ascii "expired_at"] := by decide
  rw [readApiKey, parse_thirdPartyContent, Option.bind_eq_bind, Option.bind_some]
  refine Option.bind_eq_none_iff.2 fun found hfound ↦ ?_
  have hnone := none_mem_fields hfound (List.mem_cons_self : ascii "uid" ∈ _) hmissing
  split
  · rw [List.mem_pair] at hnone
    rcases hnone with h | h
    · cases h
    · cases h
  · rfl

theorem readThirdParty_apiKeyContent (uid : ℤ) (nonce : String) :
    f.readThirdParty (apiKeyContent uid nonce) = none := by
  have hmissing : ascii "userid" ∉ [ascii "uid", ascii "nonce"] := by decide
  rw [readThirdParty, parse_apiKeyContent, Option.bind_eq_bind, Option.bind_some]
  refine Option.bind_eq_none_iff.2 fun found hfound ↦ ?_
  have hnone := none_mem_fields hfound (List.mem_cons_self : ascii "userid" ∈ _) hmissing
  split
  · rw [List.mem_cons, List.mem_pair] at hnone
    rcases hnone with h | h | h
    · cases h
    · cases h
    · cases h
  · rfl

/-! ### What each kind speaks -/

/-- What the parser of a kind can read. -/
def Speaks : CredentialKind → Bytes → Prop
  | .apiKey, content => (readApiKey content).isSome = true
  | .magicLink, content => (MagicLinkToken.deserialize content).isSome = true
  | .thirdParty, content => (f.readThirdParty content).isSome = true
  | .token, content => ∃ header claims, (Base64.decode header).isSome = true ∧
      content = utf8 (header ++ '.' :: claims)

/-- How the contents of a kind begin. -/
def openings : CredentialKind → Bytes
  | .apiKey | .thirdParty => [code '{']
  | .magicLink => [0, 1]
  | .token => [code 'e']

theorem head_content (c : Credential) : ∃ b ∈ openings c.kind, (f.content c).head? = some b := by
  cases c with
  | apiKey uid nonce => exact ⟨_, List.mem_cons_self, rfl⟩
  | magicLink token =>
    rcases head_serialize token with h | h
    · exact ⟨0, List.mem_cons_self, h⟩
    · exact ⟨1, List.mem_cons_of_mem _ List.mem_cons_self, h⟩
  | thirdParty info => exact ⟨_, List.mem_cons_self, rfl⟩
  | token fields => exact ⟨_, List.mem_cons_self, f.head_signingInput fields⟩

/-- Of all openings, a kind reads nothing but its own. -/
theorem mem_openings_of_speaks {kind kind' : CredentialKind} (h : f.Speaks kind content)
    (hb : b ∈ openings kind') (hhead : content.head? = some b) : b ∈ openings kind := by
  have hall : ∀ kind, openings kind ⊆ [code '{', 0, 1, code 'e'] := by
    intro kind
    cases kind with
    | _ => decide +kernel
  have hb := hall kind' hb
  obtain ⟨bs, rfl⟩ := List.head?_eq_some_iff.1 hhead
  -- What is JSON begins with none of the last three.
  have hjson : ∀ node, parse (b :: bs) = some node → b ∈ [code '{'] := by
    intro node hnode
    rcases List.mem_cons.1 hb with rfl | hb
    · exact List.mem_cons_self
    · rw [parse_eq_none hb] at hnode
      cases hnode
  cases kind with
  | apiKey =>
    obtain ⟨_, h⟩ := Option.isSome_iff_exists.1 h
    obtain ⟨node, hnode, -⟩ := Option.bind_eq_some_iff.1 h
    exact hjson node hnode
  | thirdParty =>
    obtain ⟨_, h⟩ := Option.isSome_iff_exists.1 h
    obtain ⟨node, hnode, -⟩ := Option.bind_eq_some_iff.1 h
    exact hjson node hnode
  | magicLink =>
    obtain ⟨token, h⟩ := Option.isSome_iff_exists.1 h
    rcases head_of_deserialize h with h | h
    · exact Option.some.inj h ▸ List.mem_cons_self
    · exact Option.some.inj h ▸ List.mem_cons_of_mem _ List.mem_cons_self
  | token =>
    obtain ⟨header, claims, hheader, heq⟩ := h
    have honly : ∀ b ∈ [code '{', 0, 1, code 'e'], 45 ≤ b.val ∧ b.val ≤ 122 → b ∈ [code 'e'] := by
      decide +kernel
    exact honly b hb (head_of_decode hheader (heq ▸ hhead))

/-- Only the two kinds of keys begin alike. -/
theorem eq_or_keys_of_openings {kind kind' : CredentialKind} (h : b ∈ openings kind)
    (h' : b ∈ openings kind') : kind = kind' ∨ kind = .apiKey ∧ kind' = .thirdParty ∨
      kind = .thirdParty ∧ kind' = .apiKey := by
  have hdisjoint : ∀ kind kind', kind = kind' ∨ kind = .apiKey ∧ kind' = .thirdParty ∨
      kind = .thirdParty ∧ kind' = .apiKey ∨ ∀ b ∈ openings kind, b ∉ openings kind' := by
    intro kind kind'
    cases kind with
    | _ =>
      cases kind' with
      | _ => decide +kernel
  rcases hdisjoint kind kind' with heq | hkeys | hkeys | hnot
  · exact .inl heq
  · exact .inr (.inl hkeys)
  · exact .inr (.inr hkeys)
  · exact absurd h' (hnot b h)

/-- A content is read by the parser of its own kind only. -/
theorem kind_of_speaks {kind : CredentialKind} {c : Credential}
    (h : f.Speaks kind (f.content c)) : kind = c.kind := by
  obtain ⟨b, hb, hhead⟩ := f.head_content c
  rcases eq_or_keys_of_openings (f.mem_openings_of_speaks h hb hhead) hb with
    heq | ⟨rfl, hkind⟩ | ⟨rfl, hkind⟩
  · exact heq
  · -- a bot's key is read, and it is a third party's
    cases c with
    | thirdParty info =>
      rw [Speaks, content, readApiKey_thirdPartyContent] at h
      cases h
    | _ => cases hkind
  · -- the other way round
    cases c with
    | apiKey uid nonce =>
      rw [Speaks, content, readThirdParty_apiKeyContent] at h
      cases h
    | _ => cases hkind

/-! ### Strings -/

theorem splitHex_writeHex (key : String) (content : Bytes) :
    splitHex (f.writeHex key content) = some (f.mac key content, content) := by
  have hlen := f.length_mac key content
  have hle : 32 ≤ (f.mac key content ++ content).length := by
    rw [List.length_append, hlen]
    omega
  rw [splitHex, writeHex, Hex.decode_encode, Option.bind_eq_bind, Option.bind_some, if_pos hle,
    ← hlen, List.take_left, List.drop_left]

/-- There is no dot in a hexadecimal string. -/
theorem dot_notMem_of_splitHex {s : List Char} {x : Bytes × Bytes} (h : splitHex s = some x) :
    '.' ∉ s := by
  obtain ⟨data, hdata, -⟩ := Option.bind_eq_some_iff.1 h
  intro hdot
  exact absurd (Hex.value_isSome_of_decode hdata '.' hdot) (by decide)

/-- A token has dots. -/
theorem dot_mem_of_components {s : List Char} {x : List Char × List Char × List Char}
    (h : components s = some x) : '.' ∈ s := by
  by_contra hdot
  rw [components, List.splitOn_eq_singleton hdot] at h
  cases h

theorem dot_notMem_encode (bs : Bytes) : '.' ∉ Base64.encode bs := by
  intro hdot
  exact absurd (Base64.value_isSome_of_decode (Base64.decode_encode bs) '.' hdot) (by decide)

theorem components_createToken (key : String) (fields : TokenContent) :
    components (f.createToken key fields) =
      some (Base64.encode tokenHeader, Base64.encode (f.tokenClaims fields),
        Base64.encode (f.mac key (utf8 (f.signingInput fields)))) := by
  rw [components, createToken]
  generalize utf8 (f.signingInput fields) = bs
  rw [signingInput, List.append_assoc, List.cons_append,
    List.splitOn_append_cons_self_of_not_mem (dot_notMem_encode _),
    List.splitOn_append_cons_self_of_not_mem (dot_notMem_encode _),
    List.splitOn_eq_singleton (dot_notMem_encode _)]

theorem takeApart_of_ne_token {kind : CredentialKind} (hkind : kind ≠ .token) (s : List Char) :
    takeApart kind s = splitHex s := by
  cases kind with
  | token => exact absurd rfl hkind
  | _ => rfl

theorem takeApart_of_components {s header claims signature : List Char} {mac : Bytes}
    (h : components s = some (header, claims, signature))
    (hmac : Base64.decode signature = some mac) :
    takeApart .token s = some (mac, utf8 (header ++ '.' :: claims)) := by
  rw [takeApart, h]
  show (Base64.decode signature).bind _ = _
  rw [hmac]
  rfl

/-- The parser of a credential's kind takes it apart. -/
theorem takeApart_issue (key : String) (c : Credential) :
    takeApart c.kind (f.issue key c) = some (f.mac key (f.content c), f.content c) := by
  cases c with
  | token fields =>
    exact takeApart_of_components (f.components_createToken key fields) (Base64.decode_encode _)
  | _ => exact f.splitHex_writeHex key _

/-- No other parser gets anything else out of it. -/
theorem eq_content_of_takeApart_issue {kind : CredentialKind} {key : String} {c : Credential}
    {mac : Bytes} (h : takeApart kind (f.issue key c) = some (mac, content)) :
    content = f.content c := by
  have hown := f.takeApart_issue key c
  by_cases hkind : kind = .token
  · by_cases hc : c.kind = .token
    · rw [hkind, ← hc, hown] at h
      exact (Prod.mk.inj (Option.some.inj h)).2.symm
    · -- A token is read, but the string is hexadecimal.
      rw [takeApart_of_ne_token hc] at hown
      rw [hkind] at h
      obtain ⟨_, hcomponents, -⟩ := Option.bind_eq_some_iff.1 h
      exact absurd (dot_mem_of_components hcomponents) (dot_notMem_of_splitHex hown)
  · rw [takeApart_of_ne_token hkind] at h
    by_cases hc : c.kind = .token
    · -- A hexadecimal string is read, but it is a token.
      rw [hc] at hown
      obtain ⟨_, hcomponents, -⟩ := Option.bind_eq_some_iff.1 hown
      exact absurd (dot_mem_of_components hcomponents) (dot_notMem_of_splitHex h)
    · rw [takeApart_of_ne_token hc, h] at hown
      exact (Prod.mk.inj (Option.some.inj hown)).2

/-! ### No parser accepts another kind -/

theorem splitHex_of_verifyHex {key : String} {s : List Char}
    (h : f.verifyHex key s = some content) : splitHex s = some (f.mac key content, content) := by
  obtain ⟨⟨mac, content'⟩, hsplit, h⟩ := Option.bind_eq_some_iff.1 h
  dsimp only at h
  split at h
  · rename_i hmac
    obtain rfl := Option.some.inj h
    rw [← hmac]
    exact hsplit
  · cases h

/-- A parser accepts what it can take apart into a MAC and a content that it can read. -/
theorem speaks_of_accepts {kind : CredentialKind} {key : String} {now : ℤ} {checkExpired : Bool}
    {s : List Char} (h : f.accepts key now checkExpired kind s = true) :
    ∃ content, takeApart kind s = some (f.mac key content, content) ∧ f.Speaks kind content := by
  cases kind with
  | apiKey =>
    obtain ⟨_, h⟩ := Option.isSome_iff_exists.1 h
    obtain ⟨content, hverify, h⟩ := Option.bind_eq_some_iff.1 h
    obtain ⟨_, hread, -⟩ := Option.bind_eq_some_iff.1 h
    exact ⟨content, f.splitHex_of_verifyHex hverify, Option.isSome_of_eq_some hread⟩
  | magicLink =>
    obtain ⟨_, h⟩ := Option.isSome_iff_exists.1 h
    rw [parseMagicLink] at h
    split at h
    · -- the empty string
      cases h
    · obtain ⟨content, hverify, h⟩ := Option.bind_eq_some_iff.1 h
      obtain ⟨_, hread, -⟩ := Option.bind_eq_some_iff.1 h
      exact ⟨content, f.splitHex_of_verifyHex hverify, Option.isSome_of_eq_some hread⟩
  | thirdParty =>
    obtain ⟨_, h⟩ := Option.isSome_iff_exists.1 h
    obtain ⟨content, hverify, h⟩ := Option.bind_eq_some_iff.1 h
    obtain ⟨_, hread, -⟩ := Option.bind_eq_some_iff.1 h
    exact ⟨content, f.splitHex_of_verifyHex hverify, Option.isSome_of_eq_some hread⟩
  | token =>
    obtain ⟨_, h⟩ := Option.isSome_iff_exists.1 h
    obtain ⟨⟨header, claims, signature⟩, hcomponents, h⟩ := Option.bind_eq_some_iff.1 h
    obtain ⟨algorithm, hheader, h⟩ := Option.bind_eq_some_iff.1 h
    obtain ⟨fields, -, h⟩ := Option.bind_eq_some_iff.1 h
    obtain ⟨mac, hsignature, h⟩ := Option.bind_eq_some_iff.1 h
    obtain ⟨bytes, hbytes, -⟩ := Option.bind_eq_some_iff.1 hheader
    -- of the header it only matters that it is base64
    split at h
    · rename_i hchecks
      rw [hchecks.2.1] at hsignature
      exact ⟨_, takeApart_of_components hcomponents hsignature, header, claims,
        Option.isSome_of_eq_some hbytes, rfl⟩
    · cases h

/-- No parser accepts a credential of another kind, or a string that it takes apart into the
content of one. -/
theorem not_accepts (key key' : String) (now : ℤ) (checkExpired : Bool) (c : Credential)
    {kind : CredentialKind} (hkind : kind ≠ c.kind) (s : List Char)
    (hs : s = f.issue key c ∨ ∃ mac, takeApart kind s = some (mac, f.content c)) :
    f.accepts key' now checkExpired kind s = false := by
  refine Bool.eq_false_iff.2 fun haccepts ↦ ?_
  obtain ⟨content, htake, hspeaks⟩ := f.speaks_of_accepts haccepts
  have hcontent : content = f.content c := by
    rcases hs with rfl | ⟨mac, hmac⟩
    · exact f.eq_content_of_takeApart_issue htake
    · rw [hmac] at htake
      exact (Prod.mk.inj (Option.some.inj htake)).2.symm
  exact hkind (f.kind_of_speaks (hcontent ▸ hspeaks))

/-- The MAC and the time of the key of a third party. -/
def sampleFormats : CredentialFormats where
  mac _ _ := [14, 132, 248, 28, 208, 233, 217, 45, 182, 177, 92, 183, 128, 79, 125, 149,
    144, 40, 37, 160, 66, 10, 216, 53, 239, 15, 116, 129, 147, 22, 214, 232]
  length_mac _ _ := rfl
  showTime _ := ascii "2024-01-01T00:00:00Z"
  readTime _ := some 1704067200

/-- The key of a third party is no key of a bot. -/
theorem not_accepts_thirdParty :
    sampleFormats.accepts "123456" 1704067100 true .apiKey
      (sampleFormats.issue "123456" (.thirdParty ⟨"7", "ann", 1704067200⟩)) = false :=
  sampleFormats.not_accepts "123456" "123456" 1704067100 true
    (.thirdParty ⟨"7", "ann", 1704067200⟩) (by decide) _ (.inl rfl)

/-- If no other content has the MAC of a credential, no string with this MAC passes for another
kind. -/
theorem not_accepts_of_mac {key : String} {c : Credential}
    (hideal : ∀ content, f.mac key content = f.mac key (f.content c) → content = f.content c)
    (now : ℤ) (checkExpired : Bool) {kind : CredentialKind} (hkind : kind ≠ c.kind)
    {s : List Char} (hs : takeApart kind s = some (f.mac key (f.content c), content)) :
    f.accepts key now checkExpired kind s = false := by
  refine Bool.eq_false_iff.2 fun haccepts ↦ ?_
  obtain ⟨content', htake, hspeaks⟩ := f.speaks_of_accepts haccepts
  have hmac : f.mac key content' = f.mac key (f.content c) := by
    rw [hs] at htake
    exact (Prod.mk.inj (Option.some.inj htake)).1.symm
  exact hkind (f.kind_of_speaks (hideal content' hmac ▸ hspeaks))

end CredentialFormats

end VoceChat
