import VoceChat.Credentials.Separation

/-!
# Each parser accepts what was issued for it

The contents are read back as what was written (`readApiKey_apiKeyContent`, `deserialize_serialize`,
`readThirdParty_thirdPartyContent`, `readClaims_tokenClaims`), and the MAC is the same. So what was
issued is accepted until it expires (`accepts_issue`).
-/

namespace VoceChat

open Machine JsonText

/-- A number that fits into an `i64`. -/
def FitsI64 (n : ℤ) : Prop := -(i64Size : ℤ) ≤ n ∧ n < i64Size

/-- A text that is not longer than a `u64` can say. -/
def FitsLength (s : String) : Prop := (text s).length < 2 * i64Size

/-- The values are ones of the types of the source. -/
def MagicLinkToken.Fits : MagicLinkToken → Prop
  | register _ gid code expiredAt extraEmail extraPassword =>
    (∀ n ∈ gid, FitsI64 n) ∧ FitsLength code ∧ FitsI64 expiredAt ∧
      (∀ s ∈ extraEmail, FitsLength s) ∧ ∀ s ∈ extraPassword, FitsLength s
  | login email uid code expiredAt =>
    FitsLength email ∧ (∀ n ∈ uid, FitsI64 n) ∧ FitsLength code ∧ FitsI64 expiredAt

namespace CredentialFormats

variable (f : CredentialFormats)

/-- A time that is read as it was shown. -/
def KeepsTime (time : ℤ) : Prop :=
  (fromUtf8 (f.showTime time)).isSome = true ∧ f.readTime (f.showTime time) = some time

/-! ### Magic links -/

theorem reads_text {s : String} (h : FitsLength s) :
    Bincode.Reads Bincode.readString (Bincode.string (text s)) s :=
  Bincode.reads_string (fromUtf8_text s) h

theorem reads_i64 {n : ℤ} (h : FitsI64 n) : Bincode.Reads Bincode.readI64 (Bincode.i64 n) n :=
  Bincode.reads_i64 h.1 h.2

theorem reads_serialize {token : MagicLinkToken} (h : token.Fits) :
    Bincode.Reads MagicLinkToken.reader token.serialize token := by
  cases token with
  | register isConfirmed gid code expiredAt extraEmail extraPassword =>
    obtain ⟨hgid, hcode, hexpired, hemail, hpassword⟩ := h
    refine (Bincode.reads_u32 (by decide)).bind ?_
    refine (Bincode.reads_bool isConfirmed).bind ?_
    refine (Bincode.reads_option fun n hn ↦ reads_i64 (hgid n hn)).bind ?_
    refine (reads_text hcode).bind ?_
    refine (reads_i64 hexpired).bind ?_
    refine (Bincode.reads_option fun s hs ↦ reads_text (hemail s hs)).bind ?_
    exact (Bincode.reads_option fun s hs ↦ reads_text (hpassword s hs)).last (Bincode.reads_pure _)
  | login email uid code expiredAt =>
    obtain ⟨hemail, huid, hcode, hexpired⟩ := h
    refine (Bincode.reads_u32 (by decide)).bind ?_
    refine (reads_text hemail).bind ?_
    refine (Bincode.reads_option fun n hn ↦ reads_i64 (huid n hn)).bind ?_
    refine (reads_text hcode).bind ?_
    exact (reads_i64 hexpired).last (Bincode.reads_pure _)

theorem deserialize_serialize {token : MagicLinkToken} (h : token.Fits) :
    MagicLinkToken.deserialize token.serialize = some token := by
  have hread := reads_serialize h []
  rw [List.append_nil] at hread
  rw [MagicLinkToken.deserialize, hread]
  rfl

/-! ### JSON -/

def isAscii (s : String) : Bool := s.toList.all fun c ↦ c.toNat < 128

theorem fromUtf8_ascii {s : String} (h : isAscii s = true) : fromUtf8 (ascii s) = some s := by
  have hutf8 : utf8 s.toList = ascii s :=
    utf8_of_ascii fun c hc ↦ of_decide_eq_true (List.all_eq_true.1 h c hc)
  rw [← hutf8]
  exact fromUtf8_text s

theorem text_string {bs : Bytes} (h : (fromUtf8 bs).isSome = true) :
    (Node.string (escape bs)).text = some bs :=
  textOf_escape h

theorem readStr_string (s : String) : readStr (.string (escape (text s))) = some s := by
  have hvalid : (fromUtf8 (text s)).isSome = true := by rw [fromUtf8_text]; rfl
  rw [readStr, text_string hvalid]
  exact fromUtf8_text s

theorem i64_number {n : ℤ} (h : FitsI64 n) : (Node.number (printInt n)).i64 = some n :=
  i64_printInt h.1 h.2

/-- Names are ASCII, so that a printed object has its fields. -/
theorem fields_of_ascii {fields : List (Bytes × Bytes × Node)} {names : List String}
    (hnames : fields.map (·.1) = names.map ascii)
    (hascii : names.all isAscii = true)
    (hnodup : (names.map ascii).Nodup) :
    (Node.object (printedMembers fields)).fields (names.map ascii) =
      some (fields.map fun f ↦ some f.2.2) := by
  have hvalid : ∀ f ∈ fields, (fromUtf8 f.1).isSome = true := by
    intro f hf
    have hmem : f.1 ∈ names.map ascii := hnames ▸ List.mem_map_of_mem hf
    obtain ⟨name, hname, heq⟩ := List.mem_map.1 hmem
    rw [← heq, fromUtf8_ascii (List.all_eq_true.1 hascii name hname)]
    rfl
  rw [← hnames] at hnodup ⊢
  exact fields_printedMembers hvalid hnodup

theorem readApiKey_apiKeyContent {uid : ℤ} (h : FitsI64 uid) (nonce : String) :
    readApiKey (apiKeyContent uid nonce) = some (uid, nonce) := by
  have hfields := @fields_of_ascii [intMember (ascii "uid") uid,
    stringMember (ascii "nonce") (text nonce)] ["uid", "nonce"] rfl (by decide) (by decide)
  rw [readApiKey, parse_apiKeyContent, Option.bind_eq_bind, Option.bind_some]
  refine (congrArg (Option.bind · _) hfields).trans ?_
  show (Node.number (printInt uid)).i64.bind _ = _
  rw [i64_number h]
  show (readStr (.string (escape (text nonce)))).bind _ = _
  rw [readStr_string]
  rfl

theorem readThirdParty_thirdPartyContent {info : ThirdPartyLoginInfo}
    (h : f.KeepsTime info.expiredAt) :
    f.readThirdParty (f.thirdPartyContent info) = some info := by
  have hfields := @fields_of_ascii [stringMember (ascii "userid") (text info.userid),
    stringMember (ascii "username") (text info.username),
    stringMember (ascii "expired_at") (f.showTime info.expiredAt)]
    ["userid", "username", "expired_at"] rfl (by decide) (by decide)
  rw [readThirdParty, parse_thirdPartyContent, Option.bind_eq_bind, Option.bind_some]
  refine (congrArg (Option.bind · _) hfields).trans ?_
  show (readStr (.string (escape (text info.userid)))).bind _ = _
  rw [readStr_string]
  show (readStr (.string (escape (text info.username)))).bind _ = _
  rw [readStr_string]
  show ((Node.string (escape (f.showTime info.expiredAt))).text.bind f.readTime).bind _ = _
  rw [text_string h.1, Option.bind_some, h.2]
  rfl

/-! ### Tokens -/

theorem readAlgorithm_tokenHeader : readAlgorithm tokenHeader = some (ascii "HS256") := by
  have hparse : parse tokenHeader =
      some (.object (printedMembers [stringMember (ascii "alg") (ascii "HS256")])) :=
    @parse_printObject [stringMember (ascii "alg") (ascii "HS256")]
      (List.cons_ne_nil _ _) (List.forall_mem_singleton.2 (prints_string _))
  have hfields := @fields_of_ascii [stringMember (ascii "alg") (ascii "HS256")] ["alg"] rfl
    (by decide) (by decide)
  have hvalid : (fromUtf8 (ascii "HS256")).isSome = true := by
    rw [fromUtf8_ascii (by decide)]
    rfl
  rw [readAlgorithm, hparse, Option.bind_eq_bind, Option.bind_some]
  refine (congrArg (Option.bind · _) hfields).trans ?_
  exact text_string hvalid

/-- The members of a user. -/
def userMembers (user : CurrentUser) : List (Bytes × Bytes × Node) :=
  [intMember (ascii "uid") user.uid, stringMember (ascii "device") (text user.device),
    (ascii "is_admin", printBool user.isAdmin, .bool user.isAdmin),
    (ascii "is_guest", printBool user.isGuest, .bool user.isGuest)]

theorem prints_user (user : CurrentUser) :
    Prints (printObject ((userMembers user).map fun f ↦ (f.1, f.2.1)))
      (.object (printedMembers (userMembers user))) := by
  refine prints_object (List.cons_ne_nil _ _) ?_
  rw [userMembers, List.forall_mem_cons, List.forall_mem_cons, List.forall_mem_cons,
    List.forall_mem_singleton]
  exact ⟨prints_int _, prints_string _, prints_bool _, prints_bool _⟩

theorem readCurrentUser_userMembers {user : CurrentUser} (h : FitsI64 user.uid) :
    readCurrentUser (.object (printedMembers (userMembers user))) = some user := by
  have hfields := @fields_of_ascii (userMembers user) ["uid", "device", "is_admin", "is_guest"] rfl
    (by decide) (by decide)
  rw [readCurrentUser]
  refine (congrArg (Option.bind · _) hfields).trans ?_
  show (Node.number (printInt user.uid)).i64.bind _ = _
  rw [i64_number h]
  show (readStr (.string (escape (text user.device)))).bind _ = _
  rw [readStr_string]
  rfl

theorem readTokenType_string (tokenType : TokenType) :
    readTokenType (.string (escape (ascii tokenType.name))) = some tokenType := by
  have hascii : isAscii tokenType.name = true := by
    cases tokenType with
    | accessToken => decide
    | refreshToken => decide
  have hvalid : (fromUtf8 (ascii tokenType.name)).isSome = true := by
    rw [fromUtf8_ascii hascii]
    rfl
  rw [readTokenType, text_string hvalid]
  cases tokenType with
  | accessToken => rfl
  | refreshToken => rfl

/-- The members of the claims. -/
def claimMembers (fields : TokenContent) : List (Bytes × Bytes × Node) :=
  [(ascii "d", printObject ((userMembers fields.data).map fun f ↦ (f.1, f.2.1)),
      .object (printedMembers (userMembers fields.data))),
    stringMember (ascii "e") (f.showTime fields.expireAt),
    stringMember (ascii "n") (text fields.nonce),
    stringMember (ascii "t") (ascii fields.tokenType.name)]

theorem parse_tokenClaims (fields : TokenContent) :
    parse (f.tokenClaims fields) = some (.object (printedMembers (f.claimMembers fields))) := by
  refine @parse_printObject (f.claimMembers fields) (List.cons_ne_nil _ _) ?_
  rw [claimMembers, List.forall_mem_cons, List.forall_mem_cons, List.forall_mem_cons,
    List.forall_mem_singleton]
  exact ⟨prints_user fields.data, prints_string _, prints_string _, prints_string _⟩

theorem readClaims_of_fields {claims : Bytes} {node d e n t : Node} {fields : TokenContent}
    (hparse : parse claims = some node)
    (hfields : node.fields (["d", "e", "n", "t"].map ascii) = some [some d, some e, some n, some t])
    (hdata : readCurrentUser d = some fields.data)
    (htime : e.text.bind f.readTime = some fields.expireAt)
    (hnonce : readStr n = some fields.nonce) (htype : readTokenType t = some fields.tokenType) :
    f.readClaims claims = some fields := by
  rw [readClaims, hparse, Option.bind_eq_bind, Option.bind_some]
  refine (congrArg (Option.bind · _) hfields).trans ?_
  show (readCurrentUser d).bind _ = _
  rw [hdata]
  show (e.text.bind f.readTime).bind _ = _
  rw [htime]
  show (readStr n).bind _ = _
  rw [hnonce]
  show (readTokenType t).bind _ = _
  rw [htype]
  rfl

theorem readClaims_tokenClaims {fields : TokenContent} (huid : FitsI64 fields.data.uid)
    (htime : f.KeepsTime fields.expireAt) :
    f.readClaims (f.tokenClaims fields) = some fields := by
  refine f.readClaims_of_fields (f.parse_tokenClaims fields)
    (fields_of_ascii rfl (by decide) (by decide)) (readCurrentUser_userMembers huid) ?_
    (readStr_string fields.nonce) (readTokenType_string fields.tokenType)
  show (Node.string (escape (f.showTime fields.expireAt))).text.bind f.readTime = _
  rw [text_string htime.1]
  exact htime.2

/-! ### What was issued is accepted -/

/-- A credential that has not expired, with values of the types of the source. -/
def Valid (now : ℤ) : Credential → Prop
  | .apiKey uid _ => FitsI64 uid
  | .magicLink token => token.Fits ∧ now ≤ token.getExpiredAt
  | .thirdParty info => f.KeepsTime info.expiredAt ∧ now ≤ info.expiredAt
  | .token fields => FitsI64 fields.data.uid ∧ f.KeepsTime fields.expireAt ∧ now ≤ fields.expireAt

theorem verifyHex_writeHex (key : String) (content : Bytes) :
    f.verifyHex key (f.writeHex key content) = some content := by
  rw [verifyHex, splitHex_writeHex]
  exact if_pos rfl

theorem parseToken_of_components {s header claims signature : List Char} {algorithm mac : Bytes}
    {fields : TokenContent} (h : components s = some (header, claims, signature))
    (hheader : (Base64.decode header).bind readAlgorithm = some algorithm)
    (hclaims : (Base64.decode claims).bind f.readClaims = some fields)
    (hmac : Base64.decode signature = some mac) (key : String) (now : ℤ) (checkExpired : Bool) :
    f.parseToken key now checkExpired s =
      if algorithm = ascii "HS256" ∧ mac = f.mac key (utf8 (header ++ '.' :: claims)) ∧
          ¬(checkExpired = true ∧ fields.expireAt < now) then
        some (fields.tokenType, fields.data)
      else none := by
  rw [parseToken, h]
  show ((Base64.decode header).bind readAlgorithm).bind _ = _
  rw [hheader]
  show ((Base64.decode claims).bind f.readClaims).bind _ = _
  rw [hclaims]
  show (Base64.decode signature).bind _ = _
  rw [hmac]
  rfl

theorem parseToken_createToken {key : String} {now : ℤ} {fields : TokenContent}
    (h : f.Valid now (.token fields)) (checkExpired : Bool) :
    f.parseToken key now checkExpired (f.createToken key fields) =
      some (fields.tokenType, fields.data) := by
  obtain ⟨huid, htime, hnow⟩ := h
  have hheader : (Base64.decode (Base64.encode tokenHeader)).bind readAlgorithm =
      some (ascii "HS256") := by
    rw [Base64.decode_encode, Option.bind_some, readAlgorithm_tokenHeader]
  have hclaims : (Base64.decode (Base64.encode (f.tokenClaims fields))).bind f.readClaims =
      some fields := by
    rw [Base64.decode_encode, Option.bind_some, f.readClaims_tokenClaims huid htime]
  have hsigned : f.mac key (utf8 (f.signingInput fields)) =
      f.mac key (utf8 (Base64.encode tokenHeader ++ '.' :: Base64.encode
        (f.tokenClaims fields))) := by
    rw [signingInput]
  have hfresh : ¬(checkExpired = true ∧ fields.expireAt < now) := fun h ↦ absurd h.2 (by omega)
  rw [f.parseToken_of_components (f.components_createToken key fields) hheader hclaims
    (Base64.decode_encode _), if_pos ⟨rfl, hsigned, hfresh⟩]

/-- The parser of its kind accepts a credential until it expires. -/
theorem accepts_issue {key : String} {now : ℤ} {c : Credential} (h : f.Valid now c)
    (checkExpired : Bool) : f.accepts key now checkExpired c.kind (f.issue key c) = true := by
  cases c with
  | apiKey uid nonce =>
    show (f.parseApiKey key (f.writeHex key (apiKeyContent uid nonce))).isSome = true
    rw [parseApiKey, verifyHex_writeHex, Option.bind_eq_bind, Option.bind_some,
      readApiKey_apiKeyContent h]
    rfl
  | magicLink token =>
    obtain ⟨hfits, hnow⟩ := h
    show (f.parseMagicLink key now (f.writeHex key token.serialize)).isSome = true
    have hne : ¬(f.writeHex key token.serialize).isEmpty = true := by
      intro hnil
      have hsplit := f.splitHex_writeHex key token.serialize
      rw [List.isEmpty_iff.1 hnil] at hsplit
      cases hsplit
    rw [parseMagicLink, if_neg hne, verifyHex_writeHex, Option.bind_eq_bind,
      Option.bind_some, deserialize_serialize hfits, Option.bind_eq_bind, Option.bind_some,
      if_neg (by omega)]
    rfl
  | thirdParty info =>
    obtain ⟨htime, hnow⟩ := h
    show (f.parseThirdPartyKey key now (f.writeHex key (f.thirdPartyContent info))).isSome = true
    rw [parseThirdPartyKey, verifyHex_writeHex, Option.bind_eq_bind, Option.bind_some,
      readThirdParty_thirdPartyContent f htime, Option.bind_eq_bind, Option.bind_some,
      if_neg (by omega)]
    rfl
  | token fields =>
    show (f.parseToken key now checkExpired (f.createToken key fields)).isSome = true
    rw [f.parseToken_createToken h checkExpired]
    rfl

end CredentialFormats

end VoceChat
