import VoceChat.Accounts.Sessions
import VoceChat.Foundations.Base64
import VoceChat.Foundations.Bincode
import VoceChat.Foundations.Hex
import VoceChat.Foundations.JsonText

/-!
# Credentials under one key (`src/api_key.rs`, `crates/magic-link`, `crates/token`)

The server authenticates four kinds of credentials with one key: the keys of bots, magic links, the
keys of third parties, and access and refresh tokens. Nothing that is authenticated says which kind
it is of. What keeps the kinds apart is how their contents begin, and two names:

* keys are JSON objects, and begin with `{`. A bot's has `uid` and `nonce`, a third party's
  `userid`, `username` and `expired_at`, whatever is in these texts;
* a magic link begins with the number of its variant, low byte first, so with `0` or `1`;
* a token begins with the base64 of a JSON object, so with `e`; and it is the only kind with a dot,
  as the others are hexadecimal.

A panic (the data is too short for a MAC) is a rejection here. The header of a token may have more
fields than its algorithm; they are ignored.
-/

namespace VoceChat

open Machine JsonText

/-- HMAC-SHA256 with the key of the server, and the text of a time. -/
structure CredentialFormats where
  mac : String → Bytes → Bytes
  length_mac : ∀ key content, (mac key content).length = 32
  showTime : ℤ → Bytes
  readTime : Bytes → Option ℤ

/-- The bytes of a string. -/
def text (s : String) : Bytes := utf8 s.toList

/-- A string of a tree. -/
def readStr (node : Node) : Option String := node.text.bind fromUtf8

inductive MagicLinkToken where
  | register (isConfirmed : Bool) (gid : Option ℤ) (code : String) (expiredAt : ℤ)
      (extraEmail extraPassword : Option String)
  | login (email : String) (uid : Option ℤ) (code : String) (expiredAt : ℤ)
  deriving DecidableEq

structure ThirdPartyLoginInfo where
  userid : String
  username : String
  expiredAt : ℤ
  deriving DecidableEq

/-! ### Contents -/

namespace MagicLinkToken

def getExpiredAt : MagicLinkToken → ℤ
  | register _ _ _ expiredAt _ _ | login _ _ _ expiredAt => expiredAt

def getCode : MagicLinkToken → String
  | register _ _ code _ _ _ | login _ _ code _ => code

/-- `bincode::serialize`. -/
def serialize : MagicLinkToken → Bytes
  | register isConfirmed gid code expiredAt extraEmail extraPassword =>
    Bincode.u32 0 ++ (Bincode.bool isConfirmed ++ (Bincode.option Bincode.i64 gid ++
      (Bincode.string (text code) ++ (Bincode.i64 expiredAt ++
        (Bincode.option (fun s ↦ Bincode.string (text s)) extraEmail ++
          Bincode.option (fun s ↦ Bincode.string (text s)) extraPassword)))))
  | login email uid code expiredAt =>
    Bincode.u32 1 ++ (Bincode.string (text email) ++ (Bincode.option Bincode.i64 uid ++
      (Bincode.string (text code) ++ Bincode.i64 expiredAt)))

/-- `bincode::deserialize`, which leaves what follows. -/
def reader : Bincode.Reader MagicLinkToken := do
  let variant ← Bincode.readU32
  if variant = 0 then
    let isConfirmed ← Bincode.readBool
    let gid ← Bincode.readOption Bincode.readI64
    let code ← Bincode.readString
    let expiredAt ← Bincode.readI64
    let extraEmail ← Bincode.readOption Bincode.readString
    let extraPassword ← Bincode.readOption Bincode.readString
    return register isConfirmed gid code expiredAt extraEmail extraPassword
  else if variant = 1 then
    let email ← Bincode.readString
    let uid ← Bincode.readOption Bincode.readI64
    let code ← Bincode.readString
    let expiredAt ← Bincode.readI64
    return login email uid code expiredAt
  else failure

def deserialize (content : Bytes) : Option MagicLinkToken := (reader content).map Prod.fst

end MagicLinkToken

/-- `serde_json::to_vec` of an `ApiKey`. -/
def apiKeyContent (uid : ℤ) (nonce : String) : Bytes :=
  printObject [(ascii "uid", printInt uid), (ascii "nonce", printString (text nonce))]

def readApiKey (content : Bytes) : Option (ℤ × String) := do
  let node ← parse content
  match ← node.fields [ascii "uid", ascii "nonce"] with
  | [some uid, some nonce] => do
    let uid ← uid.i64
    let nonce ← readStr nonce
    return (uid, nonce)
  | _ => none

namespace CredentialFormats

variable (f : CredentialFormats)

/-- `serde_json::to_vec` of a `ThirdPartyLoginInfo`. -/
def thirdPartyContent (info : ThirdPartyLoginInfo) : Bytes :=
  printObject [(ascii "userid", printString (text info.userid)),
    (ascii "username", printString (text info.username)),
    (ascii "expired_at", printString (f.showTime info.expiredAt))]

def readThirdParty (content : Bytes) : Option ThirdPartyLoginInfo := do
  let node ← parse content
  match ← node.fields [ascii "userid", ascii "username", ascii "expired_at"] with
  | [some userid, some username, some expiredAt] => do
    let userid ← readStr userid
    let username ← readStr username
    let expiredAt ← expiredAt.text.bind f.readTime
    return ⟨userid, username, expiredAt⟩
  | _ => none

end CredentialFormats

def TokenType.name : TokenType → String
  | accessToken => "AccessToken"
  | refreshToken => "RefreshToken"

/-- The header of the `jwt` crate. -/
def tokenHeader : Bytes := printObject [(ascii "alg", printString (ascii "HS256"))]

/-- The algorithm that a header names. -/
def readAlgorithm (header : Bytes) : Option Bytes := do
  let node ← parse header
  match ← node.fields [ascii "alg"] with
  | [some algorithm] => algorithm.text
  | _ => none

/-- What a token says: `TokenFields`. -/
structure TokenContent where
  data : CurrentUser
  expireAt : ℤ
  nonce : String
  tokenType : TokenType
  deriving DecidableEq

/-- A flag of a tree. -/
def readFlag : Node → Option Bool
  | .bool b => some b
  | _ => none

def readTokenType (node : Node) : Option TokenType := do
  let bytes ← node.text
  if bytes = ascii "AccessToken" then some .accessToken
  else if bytes = ascii "RefreshToken" then some .refreshToken
  else none

def readCurrentUser (node : Node) : Option CurrentUser := do
  match ← node.fields [ascii "uid", ascii "device", ascii "is_admin", ascii "is_guest"] with
  | [some uid, some device, some isAdmin, some isGuest] => do
    let uid ← uid.i64
    let device ← readStr device
    let isAdmin ← readFlag isAdmin
    let isGuest ← readFlag isGuest
    return ⟨uid, device, isAdmin, isGuest⟩
  | _ => none

namespace CredentialFormats

variable (f : CredentialFormats)

def tokenClaims (fields : TokenContent) : Bytes :=
  printObject [
    (ascii "d", printObject [(ascii "uid", printInt fields.data.uid),
      (ascii "device", printString (text fields.data.device)),
      (ascii "is_admin", printBool fields.data.isAdmin),
      (ascii "is_guest", printBool fields.data.isGuest)]),
    (ascii "e", printString (f.showTime fields.expireAt)),
    (ascii "n", printString (text fields.nonce)),
    (ascii "t", printString (ascii fields.tokenType.name))]

def readClaims (claims : Bytes) : Option TokenContent := do
  let node ← parse claims
  match ← node.fields [ascii "d", ascii "e", ascii "n", ascii "t"] with
  | [some data, some expireAt, some nonce, some tokenType] => do
    let data ← readCurrentUser data
    let expireAt ← expireAt.text.bind f.readTime
    let nonce ← readStr nonce
    let tokenType ← readTokenType tokenType
    return ⟨data, expireAt, nonce, tokenType⟩
  | _ => none

/-- The part of a token that is signed. -/
def signingInput (fields : TokenContent) : List Char :=
  Base64.encode tokenHeader ++ '.' :: Base64.encode (f.tokenClaims fields)

/-! ### Strings -/

/-- The MAC of a content and the content, in hexadecimal. -/
def writeHex (key : String) (content : Bytes) : List Char :=
  Hex.encode (f.mac key content ++ content)

/-- What a hexadecimal string has as the MAC, and as the content. -/
def splitHex (data : List Char) : Option (Bytes × Bytes) := do
  let data ← Hex.decode data
  if 32 ≤ data.length then some (data.take 32, data.drop 32) else none

/-- The content, if the MAC is its. -/
def verifyHex (key : String) (data : List Char) : Option Bytes := do
  let (mac, content) ← splitHex data
  if mac = f.mac key content then some content else none

/-- `create_api_key`. -/
def createApiKey (key : String) (uid : ℤ) (nonce : String) : List Char :=
  f.writeHex key (apiKeyContent uid nonce)

/-- `parse_api_key`. -/
def parseApiKey (key : String) (data : List Char) : Option ℤ := do
  let content ← f.verifyHex key data
  let (uid, _) ← readApiKey content
  return uid

/-- `encode` of magic links. -/
def encodeMagicLink (key : String) (token : MagicLinkToken) : List Char :=
  f.writeHex key token.serialize

/-- `MagicLinkToken::parse`. -/
def parseMagicLink (key : String) (now : ℤ) (s : List Char) : Option MagicLinkToken :=
  -- keys have no such check, and the server panics at an empty one
  if s.isEmpty then none
  else do
    let content ← f.verifyHex key s
    let token ← MagicLinkToken.deserialize content
    if token.getExpiredAt < now then none else some token

/-- `create_third_party_key`, after the check of the secret. -/
def createThirdPartyKey (key : String) (info : ThirdPartyLoginInfo) : List Char :=
  f.writeHex key (f.thirdPartyContent info)

/-- The part of `login` that reads the key of a third party. -/
def parseThirdPartyKey (key : String) (now : ℤ)
    (data : List Char) : Option ThirdPartyLoginInfo := do
  let content ← f.verifyHex key data
  let info ← f.readThirdParty content
  if info.expiredAt < now then none else some info

/-- `create_token`. -/
def createToken (key : String) (fields : TokenContent) : List Char :=
  f.signingInput fields ++ '.' :: Base64.encode (f.mac key (utf8 (f.signingInput fields)))

/-- The header, the claims and the signature. -/
def components (token : List Char) : Option (List Char × List Char × List Char) :=
  match token.splitOn '.' with
  | [header, claims, signature] => some (header, claims, signature)
  | _ => none

/-- `parse_token`, with `verify_with_key` of the `jwt` crate. -/
def parseToken (key : String) (now : ℤ) (checkExpired : Bool) (token : List Char) :
    Option (TokenType × CurrentUser) := do
  let (header, claims, signature) ← components token
  let algorithm ← (Base64.decode header).bind readAlgorithm
  -- the claims are read before the signature is checked, and used after it
  let fields ← (Base64.decode claims).bind f.readClaims
  let mac ← Base64.decode signature
  if algorithm = ascii "HS256" ∧ mac = f.mac key (utf8 (header ++ '.' :: claims)) ∧
      ¬(checkExpired = true ∧ fields.expireAt < now) then
    some (fields.tokenType, fields.data)
  else none

end CredentialFormats

/-! ### Kinds -/

inductive CredentialKind where
  | apiKey
  | magicLink
  | thirdParty
  | token
  deriving DecidableEq

/-- What is issued as a credential. -/
inductive Credential where
  | apiKey (uid : ℤ) (nonce : String)
  | magicLink (token : MagicLinkToken)
  | thirdParty (info : ThirdPartyLoginInfo)
  | token (fields : TokenContent)
  deriving DecidableEq

def Credential.kind : Credential → CredentialKind
  | apiKey _ _ => .apiKey
  | magicLink _ => .magicLink
  | thirdParty _ => .thirdParty
  | token _ => .token

namespace CredentialFormats

variable (f : CredentialFormats)

/-- What is authenticated. -/
def content : Credential → Bytes
  | .apiKey uid nonce => apiKeyContent uid nonce
  | .magicLink token => token.serialize
  | .thirdParty info => f.thirdPartyContent info
  | .token fields => utf8 (f.signingInput fields)

def issue (key : String) : Credential → List Char
  | .apiKey uid nonce => f.createApiKey key uid nonce
  | .magicLink token => f.encodeMagicLink key token
  | .thirdParty info => f.createThirdPartyKey key info
  | .token fields => f.createToken key fields

/-- Whether the parser of a kind accepts a string. -/
def accepts (key : String) (now : ℤ) (checkExpired : Bool) :
    CredentialKind → List Char → Bool
  | .apiKey, s => (f.parseApiKey key s).isSome
  | .magicLink, s => (f.parseMagicLink key now s).isSome
  | .thirdParty, s => (f.parseThirdPartyKey key now s).isSome
  | .token, s => (f.parseToken key now checkExpired s).isSome

/-- What the parser of a kind has as the MAC in a string, and as the content. -/
def takeApart : CredentialKind → List Char → Option (Bytes × Bytes)
  | .token, s => do
    let (header, claims, signature) ← components s
    let mac ← Base64.decode signature
    return (mac, utf8 (header ++ '.' :: claims))
  | _, s => splitHex s

end CredentialFormats

end VoceChat
