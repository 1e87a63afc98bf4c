import VoceChat.Credentials.Acceptance
import VoceChat.Foundations.Json
import VoceChat.Foundations.Slices

/-!
# Parsers that panic (`magic-link`, `api_key.rs`, `api/token.rs`, `api/datetime.rs`)

The parsers of magic links, of keys of bots and third parties, and of dates, with the places where
they panic: an assertion, slices of data that is too short for a MAC, and a date that is
unwrapped. In `Kinds` a panic is a rejection; here it is `Fault.outOfRange`, and what is accepted is
the same (`magicLinkTokenParse_eq_ok_iff`, `parseApiKeyUid_eq_ok_iff`, `loginThirdParty_eq_ok_iff`).

What is expected of a parser is that it does not panic, that it reads what was issued until that
expires, and, where no MAC is forged, that it reads nothing else (`Sound`). The last two hold of all
strings. That it does not panic holds where a hexadecimal string has 32 bytes at least, and a date
is one that there is (`sound_iff`).
-/

namespace VoceChat

open Guards Machine Slices

/-- January 1, 262145 BCE, in milliseconds. -/
def minDate : ℤ := -8334632851200000

/-- The end of December 31, 262143 CE, in milliseconds. -/
def maxDate : ℤ := 8210298412799999

/-- `Utc.timestamp_millis_opt`: there are dates of the years from -262144 to 262143. -/
def timestampMillisOpt (millis : ℤ) : Option ℤ :=
  if minDate ≤ millis ∧ millis ≤ maxDate then some millis else none

/-- `DateTime::parse_from_json`. -/
def dateTimeParseFromJson (value : Option Json.Value) : Except (Fault Unit) ℤ := do
  let timestamp ← okOr (value.bind Json.Value.asI64) (.rejected ())
  -- `unwrap`
  okOr (timestampMillisOpt timestamp) .outOfRange

namespace CredentialFormats

variable (f : CredentialFormats)

/-! ### The parsers -/

/-- `update`, and `verify`: the content of the data, if the MAC before it is its. -/
def authenticate (key : String) (data : Bytes) : Except (Fault Unit) Bytes := do
  let content ← sliceFrom data 32
  let mac ← slice data 0 32
  accept (mac = f.mac key content) ()
  return content

/-- `MagicLinkToken::parse`. -/
def magicLinkTokenParse (key : String) (now : ℤ) (s : List Char) :
    Except (Fault Unit) MagicLinkToken := do
  accept (s ≠ []) ()
  let data ← okOr (Hex.decode s) (.rejected ())
  -- `assert!`
  ensure (32 ≤ data.length) .outOfRange
  let content ← f.authenticate key data
  let magicToken ← okOr (MagicLinkToken.deserialize content) (.rejected ())
  accept (¬magicToken.getExpiredAt < now) ()
  return magicToken

/-- `parse_api_key`. -/
def parseApiKeyUid (key : String) (data : List Char) : Except (Fault Unit) ℤ := do
  let data ← okOr (Hex.decode data) (.rejected ())
  let content ← f.authenticate key data
  let (uid, _) ← okOr (readApiKey content) (.rejected ())
  return uid

/-- The key of a third party in `login`. -/
def loginThirdParty (key : String) (now : ℤ) (data : List Char) :
    Except (Fault Unit) ThirdPartyLoginInfo := do
  let data ← okOr (Hex.decode data) (.rejected ())
  let content ← f.authenticate key data
  let info ← okOr (f.readThirdParty content) (.rejected ())
  accept (¬info.expiredAt < now) ()
  return info

/-! ### What they have in common -/

/-- What is done with the content of a hexadecimal string. -/
def afterMac {α : Type} (key : String) (s : List Char) (read : Bytes → Except (Fault Unit) α) :
    Except (Fault Unit) α := do
  let data ← okOr (Hex.decode s) (.rejected ())
  let content ← f.authenticate key data
  read content

def readMagicLink (now : ℤ) (content : Bytes) : Except (Fault Unit) MagicLinkToken := do
  let magicToken ← okOr (MagicLinkToken.deserialize content) (.rejected ())
  accept (¬magicToken.getExpiredAt < now) ()
  return magicToken

def readUid (content : Bytes) : Except (Fault Unit) ℤ := do
  let (uid, _) ← okOr (readApiKey content) (.rejected ())
  return uid

def readLogin (now : ℤ) (content : Bytes) : Except (Fault Unit) ThirdPartyLoginInfo := do
  let info ← okOr (f.readThirdParty content) (.rejected ())
  accept (¬info.expiredAt < now) ()
  return info

variable {f} {key : String} {now : ℤ} {s : List Char} {data content : Bytes} {α : Type} {a : α}
  {read : Bytes → Except (Fault Unit) α}

theorem authenticate_of_short (h : data.length < 32) :
    f.authenticate key data = .error .outOfRange := by
  have hslice : (sliceFrom data 32 : Except (Fault Unit) Bytes) = .error .outOfRange :=
    if_neg fun hle ↦ absurd hle.1 (by omega)
  rw [authenticate, hslice]
  rfl

theorem authenticate_of_long (h : 32 ≤ data.length) :
    f.authenticate key data =
      if data.take 32 = f.mac key (data.drop 32) then .ok (data.drop 32)
      else .error (.rejected ()) := by
  rw [authenticate, sliceFrom_of_le h, slice_of_le (Nat.zero_le _) h]
  show (accept (data.take 32 = f.mac key (data.drop 32)) () >>= fun _ ↦ pure (data.drop 32)) = _
  unfold accept ensure
  split
  · rfl
  · rfl

theorem authenticate_eq_panic_iff :
    f.authenticate key data = .error .outOfRange ↔ data.length < 32 := by
  refine ⟨fun h ↦ ?_, authenticate_of_short⟩
  by_contra hle
  rw [authenticate_of_long (not_lt.1 hle)] at h
  split at h
  · cases h
  · cases h

/-- The content of data is the one of a string whose panics are rejections. -/
theorem verifyHex_of_decode (hdata : Hex.decode s = some data) :
    f.verifyHex key s = some content ↔ f.authenticate key data = .ok content := by
  have hverify : f.verifyHex key s =
      (if 32 ≤ data.length then some (data.take 32, data.drop 32) else none).bind fun x ↦
        if x.1 = f.mac key x.2 then some x.2 else none := by
    rw [verifyHex, splitHex, hdata]
    rfl
  rw [hverify]
  by_cases hle : 32 ≤ data.length
  · rw [if_pos hle, Option.bind_some, authenticate_of_long hle]
    split
    · exact ⟨fun h ↦ congrArg _ (Option.some_inj.1 h), fun h ↦ congrArg _ (Except.ok.inj h)⟩
    · exact iff_of_false (fun h ↦ by cases h) fun h ↦ by cases h
  · rw [if_neg hle, authenticate_of_short (not_le.1 hle)]
    exact iff_of_false (fun h ↦ by cases h) fun h ↦ by cases h

theorem afterMac_eq_ok_iff :
    f.afterMac key s read = .ok a ↔ ∃ content, f.verifyHex key s = some content ∧
      read content = .ok a := by
  simp only [afterMac, bind_eq_ok, okOr_eq_ok]
  constructor
  · rintro ⟨data, hdata, content, hcontent, hread⟩
    exact ⟨content, (verifyHex_of_decode hdata).2 hcontent, hread⟩
  · rintro ⟨content, hcontent, hread⟩
    obtain ⟨data, hdata, -⟩ := Option.bind_eq_some_iff.1 (splitHex_of_verifyHex f hcontent)
    exact ⟨data, hdata, content, (verifyHex_of_decode hdata).1 hcontent, hread⟩

/-- The string is not of fewer bytes than a MAC has. -/
def HoldsMac (s : List Char) : Prop := ∀ data, Hex.decode s = some data → 32 ≤ data.length

theorem afterMac_eq_panic_iff (hread : ∀ content, read content ≠ .error .outOfRange) :
    f.afterMac key s read = .error .outOfRange ↔ ¬HoldsMac s := by
  simp only [afterMac, bind_eq_error, okOr_eq_error, okOr_eq_ok, authenticate_eq_panic_iff, hread,
    HoldsMac, reduceCtorEq, and_false, false_or, exists_false, or_false, not_forall, not_le,
    exists_prop]

theorem readMagicLink_ne_panic (content : Bytes) :
    readMagicLink now content ≠ .error .outOfRange := by
  simp [readMagicLink, accept, bind_eq_error, okOr_eq_error, ensure_eq_error, pure, Except.pure]

theorem readUid_ne_panic (content : Bytes) : readUid content ≠ .error .outOfRange := by
  simp [readUid, bind_eq_error, okOr_eq_error, pure, Except.pure]

theorem readLogin_ne_panic (content : Bytes) : f.readLogin now content ≠ .error .outOfRange := by
  simp [readLogin, accept, bind_eq_error, okOr_eq_error, ensure_eq_error, pure, Except.pure]

/-- The assertion fails where the slices would. -/
theorem ensure_authenticate (data : Bytes) :
    (ensure (32 ≤ data.length) .outOfRange >>= fun _ ↦ f.authenticate key data) =
      f.authenticate key data := by
  by_cases hle : 32 ≤ data.length
  · rw [ensure, if_pos hle]
    rfl
  · rw [ensure, if_neg hle, authenticate_of_short (not_le.1 hle)]
    rfl

theorem magicLinkTokenParse_nil : f.magicLinkTokenParse key now [] = .error (.rejected ()) := rfl

theorem magicLinkTokenParse_of_ne_nil (hs : s ≠ []) :
    f.magicLinkTokenParse key now s = f.afterMac key s (readMagicLink now) := by
  rw [magicLinkTokenParse, accept, ensure, if_pos hs, afterMac]
  show (okOr (Hex.decode s) _ >>= _) = _
  refine congrArg _ (funext fun data ↦ ?_)
  refine Eq.trans (bind_assoc (ensure (32 ≤ data.length) Fault.outOfRange)
    (fun _ ↦ f.authenticate key data) (readMagicLink now)).symm ?_
  exact congrArg (· >>= readMagicLink now) (ensure_authenticate data)

theorem parseApiKeyUid_eq : f.parseApiKeyUid key s = f.afterMac key s readUid := rfl

theorem loginThirdParty_eq : f.loginThirdParty key now s = f.afterMac key s (f.readLogin now) := rfl

/-! ### What is accepted -/

theorem readMagicLink_eq_ok_iff {token : MagicLinkToken} :
    readMagicLink now content = .ok token ↔
      MagicLinkToken.deserialize content = some token ∧ now ≤ token.getExpiredAt := by
  simp only [readMagicLink, accept, bind_eq_ok, okOr_eq_ok, ensure_eq_ok, exists_unit,
    pure_eq_ok, not_lt]
  constructor
  · rintro ⟨token, htoken, hnow, rfl⟩
    exact ⟨htoken, hnow⟩
  · rintro ⟨htoken, hnow⟩
    exact ⟨token, htoken, hnow, rfl⟩

theorem readUid_eq_ok_iff {uid : ℤ} :
    readUid content = .ok uid ↔ ∃ nonce, readApiKey content = some (uid, nonce) := by
  simp only [readUid, bind_eq_ok, okOr_eq_ok, pure_eq_ok]
  constructor
  · rintro ⟨⟨uid, nonce⟩, hread, rfl⟩
    exact ⟨nonce, hread⟩
  · rintro ⟨nonce, hread⟩
    exact ⟨_, hread, rfl⟩

theorem readLogin_eq_ok_iff {info : ThirdPartyLoginInfo} :
    f.readLogin now content = .ok info ↔
      f.readThirdParty content = some info ∧ now ≤ info.expiredAt := by
  simp only [readLogin, accept, bind_eq_ok, okOr_eq_ok, ensure_eq_ok, exists_unit,
    pure_eq_ok, not_lt]
  constructor
  · rintro ⟨info, hinfo, hnow, rfl⟩
    exact ⟨hinfo, hnow⟩
  · rintro ⟨hinfo, hnow⟩
    exact ⟨info, hinfo, hnow, rfl⟩

theorem unexpired_iff {o : Option α} {expiredAt : α → ℤ} :
    o = some a ∧ now ≤ expiredAt a ↔
      ∃ b, o = some b ∧ (if expiredAt b < now then none else some b) = some a := by
  constructor
  · rintro ⟨ha, hnow⟩
    exact ⟨a, ha, if_neg (not_lt.2 hnow)⟩
  · rintro ⟨b, hb, heq⟩
    split at heq
    · cases heq
    · rename_i hnow
      obtain rfl := Option.some_inj.1 heq
      exact ⟨hb, not_lt.1 hnow⟩

/-- With panics as rejections, magic links are accepted as before. -/
theorem magicLinkTokenParse_eq_ok_iff {token : MagicLinkToken} :
    f.magicLinkTokenParse key now s = .ok token ↔ f.parseMagicLink key now s = some token := by
  rcases eq_or_ne s [] with rfl | hs
  · exact iff_of_false (fun h ↦ by cases h) fun h ↦ by cases h
  · rw [magicLinkTokenParse_of_ne_nil hs, afterMac_eq_ok_iff, parseMagicLink,
      if_neg fun h ↦ hs (List.isEmpty_iff.1 h)]
    simp only [readMagicLink_eq_ok_iff, Option.bind_eq_bind, Option.bind_eq_some_iff]
    exact exists_congr fun content ↦ and_congr_right fun _ ↦ unexpired_iff

theorem parseApiKeyUid_eq_ok_iff {uid : ℤ} :
    f.parseApiKeyUid key s = .ok uid ↔ f.parseApiKey key s = some uid := by
  rw [parseApiKeyUid_eq, afterMac_eq_ok_iff, parseApiKey]
  simp only [readUid_eq_ok_iff, Option.bind_eq_bind, Option.bind_eq_some_iff]
  refine exists_congr fun content ↦ and_congr_right fun _ ↦ ?_
  constructor
  · rintro ⟨nonce, hread⟩
    exact ⟨(uid, nonce), hread, rfl⟩
  · rintro ⟨⟨other, nonce⟩, hread, heq⟩
    obtain rfl := Option.some_inj.1 heq
    exact ⟨nonce, hread⟩

theorem loginThirdParty_eq_ok_iff {info : ThirdPartyLoginInfo} :
    f.loginThirdParty key now s = .ok info ↔ f.parseThirdPartyKey key now s = some info := by
  rw [loginThirdParty_eq, afterMac_eq_ok_iff, parseThirdPartyKey]
  simp only [readLogin_eq_ok_iff, Option.bind_eq_bind, Option.bind_eq_some_iff]
  exact exists_congr fun content ↦ and_congr_right fun _ ↦ unexpired_iff

/-! ### What is expected of a parser -/

/-- Values of the types of the source, and times that are read as they are shown. -/
def Fits (f : CredentialFormats) : Credential → Prop
  | .apiKey uid _ => FitsI64 uid
  | .magicLink token => token.Fits
  | .thirdParty info => f.KeepsTime info.expiredAt
  | .token fields => FitsI64 fields.data.uid ∧ f.KeepsTime fields.expireAt

/-- A credential has not expired. Keys of bots do not. -/
def Unexpired (now : ℤ) : Credential → Prop
  | .apiKey _ _ => True
  | .magicLink token => now ≤ token.getExpiredAt
  | .thirdParty info => now ≤ info.expiredAt
  | .token fields => now ≤ fields.expireAt

variable (f key now) in
/-- With an ideal MAC, the MAC of a content is only in a string when the content was issued. -/
def Unforged (issued : Credential → Prop) (s : List Char) : Prop :=
  ∀ content, splitHex s = some (f.mac key content, content) →
    ∃ c, issued c ∧ f.Fits c ∧ f.content c = content

variable (f key now) in
/-- What is expected of a parser at a string. `Says c a` is for a credential of its kind, and what
it is read as. -/
structure Sound (issued : Credential → Prop) (Says : Credential → α → Prop)
    (parse : List Char → Except (Fault Unit) α) (s : List Char) : Prop where
  not_panic : parse s ≠ .error .outOfRange
  reads : ∀ c a, Says c a → f.Fits c → s = f.issue key c → (parse s = .ok a ↔ Unexpired now c)
  authentic : f.Unforged key issued s → ∀ a, parse s = .ok a →
    ∃ c, issued c ∧ Says c a ∧ Hex.decode s = some (f.mac key (f.content c) ++ f.content c)

theorem decode_of_splitHex {mac : Bytes} (h : splitHex s = some (mac, content)) :
    Hex.decode s = some (mac ++ content) := by
  obtain ⟨data, hdata, hsplit⟩ := Option.bind_eq_some_iff.1 h
  split at hsplit
  · obtain ⟨rfl, rfl⟩ := Prod.mk.inj (Option.some_inj.1 hsplit)
    rw [List.take_append_drop]
    exact hdata
  · cases hsplit

/-- A parser that reads a content as what was issued is sound, unless it panics. -/
theorem sound_iff_not_panic {issued : Credential → Prop} {Says : Credential → α → Prop}
    {parse : List Char → Except (Fault Unit) α}
    (hparse : ∀ a, parse s = .ok a ↔ ∃ content, f.verifyHex key s = some content ∧
      read content = .ok a)
    (hissue : ∀ c a, Says c a → f.issue key c = f.writeHex key (f.content c))
    (hread : ∀ c a, Says c a → f.Fits c → (read (f.content c) = .ok a ↔ Unexpired now c))
    (htells : ∀ c a, f.Fits c → read (f.content c) = .ok a → Says c a) :
    f.Sound key now issued Says parse s ↔ parse s ≠ .error .outOfRange := by
  refine ⟨Sound.not_panic,
    fun hpanic ↦ ⟨hpanic, fun c a hc hfits heq ↦ ?_, fun hunforged a ha ↦ ?_⟩⟩
  · have hverify : f.verifyHex key s = some (f.content c) := by
      rw [heq, hissue c a hc]
      exact f.verifyHex_writeHex key (f.content c)
    rw [hparse, hverify, ← hread c a hc hfits]
    refine ⟨fun ⟨content, hcontent, h⟩ ↦ ?_, fun h ↦ ⟨_, rfl, h⟩⟩
    rwa [← Option.some_inj.1 hcontent] at h
  · obtain ⟨content, hverify, hcontent⟩ := (hparse a).1 ha
    have hsplit := f.splitHex_of_verifyHex hverify
    obtain ⟨c, hissued, hfits, rfl⟩ := hunforged content hsplit
    exact ⟨c, hissued, htells c a hfits hcontent, decode_of_splitHex hsplit⟩

theorem sound_magicLink (issued : Credential → Prop) :
    f.Sound key now issued (fun c token ↦ c = .magicLink token) (f.magicLinkTokenParse key now) s ↔
      f.magicLinkTokenParse key now s ≠ .error .outOfRange := by
  refine @sound_iff_not_panic f key now s _ (readMagicLink now) _ _ _ (fun token ↦ ?_) ?_ ?_ ?_
  · rcases eq_or_ne s [] with rfl | hs
    · exact iff_of_false (fun h ↦ by cases h) fun ⟨_, h, _⟩ ↦ by cases h
    · rw [magicLinkTokenParse_of_ne_nil hs, afterMac_eq_ok_iff]
  · rintro _ token rfl
    rfl
  · rintro _ token rfl hfits
    rw [readMagicLink_eq_ok_iff]
    exact and_iff_right (deserialize_serialize hfits)
  · intro c token hfits h
    obtain ⟨htoken, -⟩ := readMagicLink_eq_ok_iff.1 h
    have hkind : .magicLink = c.kind := f.kind_of_speaks (Option.isSome_of_eq_some htoken)
    cases c with
    | magicLink other =>
      have hother : MagicLinkToken.deserialize (f.content (.magicLink other)) = some other :=
        deserialize_serialize hfits
      rw [hother] at htoken
      rw [Option.some_inj.1 htoken]
    | _ => cases hkind

theorem sound_apiKey (issued : Credential → Prop) :
    f.Sound key now issued (fun c uid ↦ ∃ nonce, c = .apiKey uid nonce) (f.parseApiKeyUid key) s ↔
      f.parseApiKeyUid key s ≠ .error .outOfRange := by
  refine @sound_iff_not_panic f key now s _ readUid _ _ _ (fun uid ↦ afterMac_eq_ok_iff) ?_ ?_ ?_
  · rintro _ uid ⟨nonce, rfl⟩
    rfl
  · rintro _ uid ⟨nonce, rfl⟩ hfits
    exact iff_of_true (readUid_eq_ok_iff.2 ⟨nonce, readApiKey_apiKeyContent hfits nonce⟩) trivial
  · intro c uid hfits h
    obtain ⟨nonce, hread⟩ := readUid_eq_ok_iff.1 h
    have hkind : .apiKey = c.kind := f.kind_of_speaks (Option.isSome_of_eq_some hread)
    cases c with
    | apiKey other nonce' =>
      have hother : readApiKey (f.content (.apiKey other nonce')) = some (other, nonce') :=
        readApiKey_apiKeyContent hfits nonce'
      rw [hother] at hread
      exact ⟨nonce', by rw [(Prod.mk.inj (Option.some_inj.1 hread)).1]⟩
    | _ => cases hkind

theorem sound_thirdParty (issued : Credential → Prop) :
    f.Sound key now issued (fun c info ↦ c = .thirdParty info) (f.loginThirdParty key now) s ↔
      f.loginThirdParty key now s ≠ .error .outOfRange := by
  refine @sound_iff_not_panic f key now s _ (f.readLogin now) _ _ _ (fun info ↦ afterMac_eq_ok_iff)
    ?_ ?_ ?_
  · rintro _ info rfl
    rfl
  · rintro _ info rfl hfits
    rw [readLogin_eq_ok_iff]
    exact and_iff_right (f.readThirdParty_thirdPartyContent hfits)
  · intro c info hfits h
    obtain ⟨hinfo, -⟩ := readLogin_eq_ok_iff.1 h
    have hkind : .thirdParty = c.kind := f.kind_of_speaks (Option.isSome_of_eq_some hinfo)
    cases c with
    | thirdParty other =>
      have hother : f.readThirdParty (f.content (.thirdParty other)) = some other :=
        f.readThirdParty_thirdPartyContent hfits
      rw [hother] at hinfo
      rw [Option.some_inj.1 hinfo]
    | _ => cases hkind

end CredentialFormats

/-! ### The parsers together -/

/-- What comes to one of the parsers. -/
inductive ParserInput where
  | magicLink (s : List Char)
  | apiKey (data : List Char)
  | thirdParty (key : List Char)
  | dateTime (value : Option Json.Value)

namespace ParserInput

open CredentialFormats

/-- The parser does what is expected of it. -/
def Sound (f : CredentialFormats) (key : String) (now : ℤ) (issued : Credential → Prop) :
    ParserInput → Prop
  | magicLink s =>
    f.Sound key now issued (fun c token ↦ c = .magicLink token) (f.magicLinkTokenParse key now) s
  | apiKey s =>
    f.Sound key now issued (fun c uid ↦ ∃ nonce, c = .apiKey uid nonce) (f.parseApiKeyUid key) s
  | thirdParty s =>
    f.Sound key now issued (fun c info ↦ c = .thirdParty info) (f.loginThirdParty key now) s
  | dateTime value => dateTimeParseFromJson value ≠ .error .outOfRange

/-- Hexadecimal strings are of the length of a MAC at least, and dates in their range. -/
def InRange : ParserInput → Prop
  | magicLink s => s ≠ [] → HoldsMac s
  | apiKey s | thirdParty s => HoldsMac s
  | dateTime value => ∀ millis, value.bind Json.Value.asI64 = some millis →
      minDate ≤ millis ∧ millis ≤ maxDate

variable {f : CredentialFormats} {key : String} {now : ℤ} {s : List Char}

theorem magicLinkTokenParse_ne_panic_iff :
    f.magicLinkTokenParse key now s ≠ .error .outOfRange ↔ (s ≠ [] → HoldsMac s) := by
  rcases eq_or_ne s [] with rfl | hs
  · refine iff_of_true (fun h ↦ ?_) fun h ↦ absurd rfl h
    cases h
  · rw [magicLinkTokenParse_of_ne_nil hs, ne_eq, afterMac_eq_panic_iff readMagicLink_ne_panic,
      not_not]
    exact ⟨fun h _ ↦ h, fun h ↦ h hs⟩

theorem dateTimeParseFromJson_ne_panic_iff {value : Option Json.Value} :
    dateTimeParseFromJson value ≠ .error .outOfRange ↔
      ∀ millis, value.bind Json.Value.asI64 = some millis → minDate ≤ millis ∧
      millis ≤ maxDate := by
  simp only [ne_eq, dateTimeParseFromJson, timestampMillisOpt, bind_eq_error, okOr_eq_error,
    okOr_eq_ok, reduceCtorEq, and_false, false_or, and_true, not_exists, not_and, ite_eq_right_iff,
    imp_false, Classical.not_imp, not_not]

/-- **The parsers do what is expected of them at strings that are not shorter than a MAC, and at
dates that there are.** -/
theorem sound_iff (f : CredentialFormats) (key : String) (now : ℤ) (issued : Credential → Prop)
    (input : ParserInput) : input.Sound f key now issued ↔ input.InRange := by
  cases input with
  | magicLink s => exact (sound_magicLink issued).trans magicLinkTokenParse_ne_panic_iff
  | apiKey s =>
    refine (sound_apiKey issued).trans ?_
    rw [parseApiKeyUid_eq, ne_eq, afterMac_eq_panic_iff readUid_ne_panic, not_not]
    rfl
  | thirdParty s =>
    refine (sound_thirdParty issued).trans ?_
    rw [loginThirdParty_eq, ne_eq, afterMac_eq_panic_iff readLogin_ne_panic, not_not]
    rfl
  | dateTime value => exact dateTimeParseFromJson_ne_panic_iff

/-- A key of one byte, and a date beyond the years that there are. -/
theorem not_sound_short :
    ¬(magicLink ['0', '0']).Sound sampleFormats "123456" 0 (fun _ ↦ False) ∧
      ¬(apiKey ['0', '0']).Sound sampleFormats "123456" 0 (fun _ ↦ False) ∧
      ¬(thirdParty ['0', '0']).Sound sampleFormats "123456" 0 (fun _ ↦ False) ∧
      ¬(dateTime (some (.number (.posInt 9000000000000000)))).Sound sampleFormats "123456" 0
        (fun _ ↦ False) :=
  ⟨fun h ↦ h.not_panic rfl, fun h ↦ h.not_panic rfl, fun h ↦ h.not_panic rfl, fun h ↦ h rfl⟩

end ParserInput

end VoceChat
