import VoceChat.Foundations.Bincode
import VoceChat.Foundations.PaddedBase64
import VoceChat.Foundations.SignedDecimal
import VoceChat.Foundations.StableSort
import VoceChat.Foundations.Utf8
import VoceChat.Groups.Restart

/-!
# Tokens for voice and video (`src/api/group.rs`, `crates/agora-token/src/lib.rs`)

A user who is in a group gets a token with which it can join the group's channel at Agora, for a
day. The token carries what it is for in the clear and a signature over it, made with the
certificate of the app. It can be read back (`read_generateAgoraToken`).

The signature is over the app, the channel and the user, one after the other with nothing between
them. The channel of a group ends in the digits of its id, and the user follows in digits: so for
user 1 of group 23 and user 31 of group 2 the same is signed (`groupSignedBytes_eq_iff`). Only the
checksums of channel and user tell these apart, and they are not signed.
-/

namespace VoceChat

open Base64 Bincode Guards Machine StableSort Utf8

/-! ### Access tokens -/

inductive Privileges where
  | joinChannel
  | publishAudioStream
  | publishVideoStream
  | publishDataStream
  deriving DecidableEq, Repr

/-- `as u16`. -/
def Privileges.code : Privileges → ℕ
  | joinChannel => 1
  | publishAudioStream => 2
  | publishVideoStream => 3
  | publishDataStream => 4

structure AgoraPrimitives where
  hmacSha256 : Bytes → Bytes → FixedBytes 32
  crc32 : Bytes → Fin u32Size

/-- When a token ends that is made now: in a day, as `u32`. -/
def tokenExpiry (now : ℕ) : ℕ := (now + 24 * 3600) % u32Size

/-- `buf_m`. -/
def tokenMessage (salt expiry : ℕ) (privileges : List Privileges) : Bytes :=
  u32 salt ++ u32 expiry ++ u16 privileges.length ++
    (sortBy Privileges.code privileges).flatMap fun k ↦ u16 k.code ++ u32 expiry

/-- `pack_bytes`. -/
def packBytes (bytes : Bytes) : Bytes := u16 bytes.length ++ bytes

/-- `buf_val`: what is signed. -/
def signedBytes (appId channelName uid : String) (m : Bytes) : Bytes :=
  toUtf8 (appId ++ channelName ++ uid) ++ m

namespace AgoraPrimitives

variable (P : AgoraPrimitives)

/-- `create_access_token`, at a time and with what the random generator returns. -/
def createAccessToken (now salt : ℕ) (appId appCertificate channelName uid : String)
    (privileges : List Privileges) : String :=
  let m := tokenMessage salt (tokenExpiry now) privileges
  let sig := (P.hmacSha256 (toUtf8 appCertificate) (signedBytes appId channelName uid m)).val
  let content := packBytes sig ++ u32 (P.crc32 (toUtf8 channelName)).val ++
    u32 (P.crc32 (toUtf8 uid)).val ++ packBytes m
  "006" ++ appId ++ Base64.standard.encode content

/-- The text of a user: none for 0. -/
def rtcUid (uid : ℕ) : String := if uid = 0 then "" else Decimal.decimal uid

/-- `create_rtc_token`. -/
def createRtcToken (now salt : ℕ) (appId appCertificate channelName : String) (uid : ℕ) : String :=
  P.createAccessToken now salt appId appCertificate channelName (rtcUid uid)
    [.joinChannel, .publishAudioStream, .publishVideoStream, .publishDataStream]

end AgoraPrimitives

/-! ### Reading a token -/

/-- What is in a token. -/
structure AccessToken where
  signature : Bytes
  crcChannelName : ℕ
  crcUid : ℕ
  message : Bytes
  salt : ℕ
  expiry : ℕ
  /-- Codes, each with the time it ends. -/
  privileges : List (ℕ × ℕ)
  deriving DecidableEq

def readPacked : Reader Bytes := do take (← readU16)

def readPrivilege : Reader (ℕ × ℕ) := do return (← readU16, ← readU32)

def readTokenMessage : Reader (ℕ × ℕ × List (ℕ × ℕ)) := do
  let salt ← readU32
  let expiry ← readU32
  let privileges ← readMany readPrivilege (← readU16)
  return (salt, expiry, privileges)

def readContent : Reader AccessToken := do
  let signature ← readPacked
  let crcChannelName ← readU32
  let crcUid ← readU32
  let message ← readPacked
  StateT.lift ((readTokenMessage message).map fun r ↦
    ⟨signature, crcChannelName, crcUid, message, r.1.1, r.1.2.1, r.1.2.2⟩)

/-- Read the token of an app. -/
def readAccessToken (appId token : String) : Option AccessToken :=
  let head := ("006" ++ appId).toList
  if token.toList.take head.length = head then do
    let content ← decodeStandard (token.toList.drop head.length)
    return (← readContent content).1
  else none

theorem reads_packed {bytes : Bytes} (h : bytes.length < 65536) :
    Bincode.Reads readPacked (packBytes bytes) bytes :=
  (reads_u16 h).bind (reads_take bytes)

theorem reads_privilege {code expiry : ℕ} (hcode : code < 65536) (hexpiry : expiry < u32Size) :
    Bincode.Reads readPrivilege (u16 code ++ u32 expiry) (code, expiry) :=
  (reads_u16 hcode).bind ((reads_u32 hexpiry).last (reads_pure (code, expiry)))

/-- What a token allows: each for as long as the token. -/
def allowed (expiry : ℕ) (privileges : List Privileges) : List (ℕ × ℕ) :=
  (sortBy Privileges.code privileges).map fun k ↦ (k.code, expiry)

variable {salt expiry : ℕ} {privileges : List Privileges}

theorem length_allowed : (allowed expiry privileges).length = privileges.length := by
  rw [allowed, List.length_map, sortBy, List.length_insertionSort, List.length_reverse]

theorem reads_tokenMessage (hsalt : salt < u32Size) (hexpiry : expiry < u32Size)
    (hcount : privileges.length < 65536) :
    Bincode.Reads readTokenMessage (tokenMessage salt expiry privileges)
      (salt, expiry, allowed expiry privileges) := by
  have hmany : Bincode.Reads (readMany readPrivilege privileges.length)
      ((sortBy Privileges.code privileges).flatMap fun k ↦ u16 k.code ++ u32 expiry)
      (allowed expiry privileges) := by
    have hwrite : (allowed expiry privileges).flatMap (fun e ↦ u16 e.1 ++ u32 e.2) =
        (sortBy Privileges.code privileges).flatMap fun k ↦ u16 k.code ++ u32 expiry :=
      List.flatMap_map _ _ _
    rw [← hwrite, ← length_allowed]
    refine reads_many fun e he ↦ ?_
    obtain ⟨k, -, rfl⟩ := List.mem_map.1 he
    have hcode : k.code < 65536 := by cases k <;> decide
    exact reads_privilege hcode hexpiry
  rw [tokenMessage, List.append_assoc, List.append_assoc]
  exact (reads_u32 hsalt).bind ((reads_u32 hexpiry).bind ((reads_u16 hcount).bind
    (hmany.last (reads_pure (salt, expiry, allowed expiry privileges)))))

theorem reads_content {signature message : Bytes} {crcChannelName crcUid : ℕ}
    {allowed : List (ℕ × ℕ)} (hsignature : signature.length < 65536)
    (hchannel : crcChannelName < u32Size) (huid : crcUid < u32Size)
    (hlength : message.length < 65536)
    (hmessage : Bincode.Reads readTokenMessage message (salt, expiry, allowed)) :
    Bincode.Reads readContent
      (packBytes signature ++ u32 crcChannelName ++ u32 crcUid ++ packBytes message)
      ⟨signature, crcChannelName, crcUid, message, salt, expiry, allowed⟩ := by
  rw [List.append_assoc, List.append_assoc]
  refine (reads_packed hsignature).bind ((reads_u32 hchannel).bind ((reads_u32 huid).bind
    ((reads_packed hlength).last fun rest ↦ ?_)))
  have hread := hmessage []
  rw [List.append_nil] at hread
  show ((readTokenMessage message).map _).bind (fun t ↦ some (t, rest)) = _
  rw [hread]
  rfl

theorem readAccessToken_of_readContent {appId : String} {content : Bytes} {t : AccessToken}
    (h : readContent content = some (t, [])) :
    readAccessToken appId ("006" ++ appId ++ Base64.standard.encode content) = some t := by
  have htoken : ("006" ++ appId ++ Base64.standard.encode content).toList =
      ("006" ++ appId).toList ++ encodeStandard content := by
    rw [String.toList_append, standard, String.toList_ofList]
  unfold readAccessToken
  dsimp only
  rw [htoken, List.take_left, if_pos rfl, List.drop_left, decodeStandard_encodeStandard]
  show (readContent content).bind _ = _
  rw [h]
  rfl

theorem length_tokenMessage : (tokenMessage salt expiry privileges).length =
    10 + 6 * privileges.length := by
  have hlength : ∀ ks : List Privileges,
      (ks.flatMap fun k ↦ u16 k.code ++ u32 expiry).length = 6 * ks.length := by
    intro ks
    induction ks with
    | nil => rfl
    | cons k ks ih =>
      rw [List.flatMap_cons, List.length_append, ih, List.length_append, u16, u32, length_leBytes,
        length_leBytes, List.length_cons]
      omega
  rw [tokenMessage, List.length_append, List.length_append, List.length_append, hlength, u32, u32,
    u16, length_leBytes, length_leBytes, length_leBytes, sortBy, List.length_insertionSort,
    List.length_reverse]

namespace AgoraPrimitives

variable {P : AgoraPrimitives} {now : ℕ} {appId appCertificate channelName uid : String}

/-- **What was written is read.** -/
theorem read_createAccessToken (hsalt : salt < u32Size)
    (hcount : 10 + 6 * privileges.length < 65536) :
    readAccessToken appId
        (P.createAccessToken now salt appId appCertificate channelName uid privileges) =
      some ⟨(P.hmacSha256 (toUtf8 appCertificate) (signedBytes appId channelName uid
          (tokenMessage salt (tokenExpiry now) privileges))).val,
        (P.crc32 (toUtf8 channelName)).val, (P.crc32 (toUtf8 uid)).val,
        tokenMessage salt (tokenExpiry now) privileges, salt, tokenExpiry now,
        allowed (tokenExpiry now) privileges⟩ := by
  have hexpiry : tokenExpiry now < u32Size := Nat.mod_lt _ (by decide)
  have hm : (tokenMessage salt (tokenExpiry now) privileges).length < 65536 :=
    length_tokenMessage.trans_lt hcount
  have hsig : ∀ sig : FixedBytes 32, sig.val.length < 65536 := fun sig ↦
    sig.property.trans_lt (by decide)
  have hmessage := reads_tokenMessage hsalt hexpiry (show privileges.length < 65536 by omega)
  have hcontent := reads_content
    (hsig (P.hmacSha256 (toUtf8 appCertificate) (signedBytes appId channelName uid
      (tokenMessage salt (tokenExpiry now) privileges))))
    (P.crc32 (toUtf8 channelName)).isLt (P.crc32 (toUtf8 uid)).isLt hm hmessage
  refine readAccessToken_of_readContent ?_
  have hread := hcontent []
  rwa [List.append_nil] at hread

end AgoraPrimitives

/-! ### The request -/

/-- What the configuration says of the app. -/
structure AgoraConfig where
  appId : String
  appCertificate : String
  deriving DecidableEq, Repr

structure AgoraTokenResponse where
  agoraToken : String
  appId : String
  uid : ℕ
  channelName : String
  expiredIn : ℕ
  deriving DecidableEq, Repr

/-- `as u32`, of an `i64`. -/
def asU32 (n : ℤ) : ℕ := (n % u32Size).toNat

def groupChannel (gid : ℤ) : String := "vocechat:group:" ++ Decimal.signed gid

/-- `generate_agora_token`. -/
def AgoraPrimitives.generateAgoraToken (P : AgoraPrimitives) (agora : Option AgoraConfig)
    (s : Groups.State) (token : CurrentUser) (gid : ℤ) (now salt : ℕ) :
    Except ApiError AgoraTokenResponse := do
  let agora ← okOr agora (.fromStatus 503)
  let group ← okOr (s.groups.get gid) (.fromStatus 404)
  ensure (group.containsUser token.uid = true) (.fromStatus 403)
  return {
    agoraToken := P.createRtcToken now salt agora.appId agora.appCertificate (groupChannel gid)
      (asU32 token.uid)
    appId := agora.appId
    uid := asU32 token.uid
    channelName := groupChannel gid
    expiredIn := 24 * 3600 }

/-- All privileges, and when they end. -/
def allPrivileges (expiry : ℕ) : List (ℕ × ℕ) :=
  [(1, expiry), (2, expiry), (3, expiry), (4, expiry)]

/-- What is signed for a user in a group. -/
def groupSignedBytes (appId : String) (gid uid : ℤ) (salt expiry : ℕ) : Bytes :=
  signedBytes appId (groupChannel gid) (AgoraPrimitives.rtcUid (asU32 uid))
    (tokenMessage salt expiry
      [.joinChannel, .publishAudioStream, .publishVideoStream, .publishDataStream])

theorem generateAgoraToken_isOk_iff {P : AgoraPrimitives} {agora : Option AgoraConfig}
    {s : Groups.State} {token : CurrentUser} {gid : ℤ} {now salt : ℕ} :
    (∃ r, P.generateAgoraToken agora s token gid now salt = .ok r) ↔
      agora.isSome = true ∧
        ∃ group, s.groups.get gid = some group ∧ group.containsUser token.uid = true := by
  simp only [AgoraPrimitives.generateAgoraToken, bind_eq_ok, okOr_eq_ok, ensure_eq_ok, exists_unit,
    pure_eq_ok, Option.isSome_iff_exists]
  constructor
  · rintro ⟨-, config, hconfig, group, hgroup, hmember, -⟩
    exact ⟨⟨config, hconfig⟩, group, hgroup, hmember⟩
  · rintro ⟨⟨config, hconfig⟩, group, hgroup, hmember⟩
    exact ⟨_, config, hconfig, group, hgroup, hmember, rfl⟩

/-- **Who gets a token, and what it is.** -/
theorem read_generateAgoraToken (P : AgoraPrimitives) (agora : Option AgoraConfig)
    (s : Groups.State) (token : CurrentUser) (gid : ℤ) (now : ℕ) {salt : ℕ}
    (hsalt : salt < 99999999) :
    ((∃ r, P.generateAgoraToken agora s token gid now salt = .ok r) ↔
      agora.isSome = true ∧
        ∃ group, s.groups.get gid = some group ∧ group.containsUser token.uid = true) ∧
    ∀ config r, agora = some config → P.generateAgoraToken agora s token gid now salt = .ok r →
      ∃ t, readAccessToken config.appId r.agoraToken = some t ∧
        t.signature = (P.hmacSha256 (toUtf8 config.appCertificate)
          (groupSignedBytes config.appId gid token.uid salt (tokenExpiry now))).val ∧
        t.crcChannelName = (P.crc32 (toUtf8 (groupChannel gid))).val ∧
        t.crcUid = (P.crc32 (toUtf8 (AgoraPrimitives.rtcUid (asU32 token.uid)))).val ∧
        t.salt = salt ∧ t.expiry = tokenExpiry now ∧
        t.privileges = allPrivileges (tokenExpiry now) := by
  refine ⟨generateAgoraToken_isOk_iff, ?_⟩
  rintro config r rfl h
  simp only [AgoraPrimitives.generateAgoraToken, bind_eq_ok, okOr_eq_ok, ensure_eq_ok, exists_unit,
    pure_eq_ok, Option.some.injEq, exists_eq_left'] at h
  obtain ⟨group, -, -, rfl⟩ := h
  have hsalt' : salt < u32Size := hsalt.trans (by decide)
  exact ⟨_, AgoraPrimitives.read_createAccessToken hsalt' (by decide), rfl, rfl, rfl, rfl, rfl, rfl⟩

theorem tokenMessage_inj {salt' expiry' : ℕ} (hsalt : salt < u32Size) (hexpiry : expiry < u32Size)
    (hsalt' : salt' < u32Size) (hexpiry' : expiry' < u32Size)
    (hcount : privileges.length < 65536)
    (h : tokenMessage salt expiry privileges = tokenMessage salt' expiry' privileges) :
    salt = salt' ∧ expiry = expiry' := by
  have hread := reads_tokenMessage hsalt hexpiry hcount []
  rw [h, reads_tokenMessage hsalt' hexpiry' hcount] at hread
  obtain ⟨rfl, hrest⟩ := Prod.mk.inj (Prod.mk.inj (Option.some.inj hread)).1
  exact ⟨rfl, (Prod.mk.inj hrest).1.symm⟩

/-- MACs and checksums of zeros. -/
def zeroPrimitives : AgoraPrimitives :=
  ⟨fun _ _ ↦ ⟨List.replicate 32 0, rfl⟩, fun _ ↦ ⟨0, by decide⟩⟩

/-- An administrator makes a public group. -/
def onePublicGroup : Groups.State :=
  Groups.State.after [.createUser false, .create ⟨1, "", true, false⟩ ⟨"all", none, [], true, true⟩]

theorem read_generateAgoraToken_onePublicGroup : ∃ r t,
    zeroPrimitives.generateAgoraToken (some ⟨"app", "cert"⟩) onePublicGroup ⟨1, "", true, false⟩ 1
      1000 7 = .ok r ∧
      readAccessToken "app" r.agoraToken = some t ∧ t.privileges = allPrivileges 87400 := by
  obtain ⟨group, hgroup, hmember⟩ : ∃ group, onePublicGroup.groups.get 1 = some group ∧
      group.containsUser 1 = true := ⟨_, rfl, rfl⟩
  obtain ⟨hiff, hread⟩ := read_generateAgoraToken zeroPrimitives (some ⟨"app", "cert"⟩)
    onePublicGroup ⟨1, "", true, false⟩ 1 1000 (show 7 < 99999999 by decide)
  obtain ⟨r, hr⟩ := hiff.2 ⟨rfl, group, hgroup, hmember⟩
  obtain ⟨t, ht, -, -, -, -, -, hprivileges⟩ := hread ⟨"app", "cert"⟩ r rfl hr
  exact ⟨r, t, hr, ht, hprivileges⟩

/-- **Whom the signature does not tell apart**: those whose ids make the same digits together. -/
theorem groupSignedBytes_eq_iff (appId : String) (gid gid' uid uid' : ℤ) {salt salt' : ℕ}
    (hsalt : salt < 99999999) (hsalt' : salt' < 99999999) (now now' : ℕ) :
    groupSignedBytes appId gid uid salt (tokenExpiry now) =
        groupSignedBytes appId gid' uid' salt' (tokenExpiry now') ↔
      Decimal.signed gid ++ AgoraPrimitives.rtcUid (asU32 uid) =
        Decimal.signed gid' ++ AgoraPrimitives.rtcUid (asU32 uid') ∧
      salt = salt' ∧ tokenExpiry now = tokenExpiry now' := by
  have hassoc : ∀ gid uid : ℤ,
      appId ++ groupChannel gid ++ AgoraPrimitives.rtcUid (asU32 uid) =
        appId ++ "vocechat:group:" ++
          (Decimal.signed gid ++ AgoraPrimitives.rtcUid (asU32 uid)) := by
    intro gid uid
    rw [groupChannel, String.append_assoc, String.append_assoc, String.append_assoc]
  unfold groupSignedBytes signedBytes
  rw [hassoc, hassoc]
  constructor
  · intro h
    obtain ⟨htext, hm⟩ := List.append_inj' h (length_tokenMessage.trans length_tokenMessage.symm)
    refine ⟨?_, tokenMessage_inj (hsalt.trans (by decide)) (Nat.mod_lt _ (by decide))
      (hsalt'.trans (by decide)) (Nat.mod_lt _ (by decide)) (by decide) hm⟩
    have hlist := congrArg String.toList (toUtf8_inj htext)
    rw [String.toList_append, String.toList_append (s := appId ++ "vocechat:group:")] at hlist
    exact String.toList_inj.1 (List.append_cancel_left hlist)
  · rintro ⟨htext, rfl, hexpiry⟩
    rw [htext, hexpiry]

/-- User 1 of group 23 and user 31 of group 2. -/
theorem groupSignedBytes_eq_iff_twoGroups :
    groupSignedBytes "app" 23 1 7 (tokenExpiry 0) = groupSignedBytes "app" 2 31 7 (tokenExpiry 0) :=
  (groupSignedBytes_eq_iff "app" 23 2 1 31 (by decide) (by decide) 0 0).2 ⟨by decide, rfl, rfl⟩

end VoceChat
