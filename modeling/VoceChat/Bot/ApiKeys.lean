import VoceChat.Accounts.UserLog
import VoceChat.Credentials.Acceptance
import VoceChat.Credentials.Separation
import VoceChat.Foundations.History
import VoceChat.Foundations.IndexedTable

/-!
# The API keys of bots (`src/api/admin_user.rs`, `src/api/bot.rs`, `src/state.rs`)

An administrator makes keys for a user and deletes them. Who shows a key is let in as the user whose
id is in the key, if the key is one of this user's in the cache. The cache is loaded from the table
`bot_key` when the server starts; what it knows of the last use of a key is written to the table now
and then.

The columns `name` and `key` are declared as `string`, which is no type of SQLite: they have the
affinity `NUMERIC`. A text that looks like a number is stored as this number. So two names that are
different in the cache may be the same in the unique index, and a name that was stored as a number
is not read back as a string: the server does not start any more (`startsAgain_iff`).

## Which keys are good

`authenticate_iff`: the ones that were made for a user who is still there, under an id that was not
deleted since. This holds of every run, whenever the server is started again.

A user of the cache carries its keys; they are kept apart here, under the ids of the users.
-/

namespace VoceChat

open Guards Machine Transition

/-! ### Columns -/

/-- A value as SQLite has stored it. -/
inductive ColumnValue (ν : Type) where
  | text (s : String)
  | number (n : ν)
  deriving DecidableEq

/-- Reading a column as a `String` fails on a number. -/
def ColumnValue.string {ν : Type} : ColumnValue ν → Option String
  | text s => some s
  | number _ => none

/-- The affinity `NUMERIC`: which texts are taken for numbers, and for which. -/
structure NumericAffinity where
  Number : Type
  decidableEq : DecidableEq Number
  number : String → Option Number
  /-- The only letter in a number is the one before its exponent. -/
  number_of_letter : ∀ s : String, 'b' ∈ s.toList → number s = none

instance (affinity : NumericAffinity) : DecidableEq affinity.Number := affinity.decidableEq

/-- What is stored for a text. -/
def NumericAffinity.store (affinity : NumericAffinity) (s : String) : ColumnValue affinity.Number :=
  ((affinity.number s).map .number).getD (.text s)

/-- A row of `bot_key`, without its id. -/
structure BotKeyRow (affinity : NumericAffinity) where
  uid : ℤ
  name : ColumnValue affinity.Number
  key : ColumnValue affinity.Number
  createdAt : ℤ
  lastUsed : Option ℤ

/-- A key in the cache. -/
structure BotKey where
  name : String
  key : String
  createdAt : ℤ
  lastUsed : Option ℤ
  deriving DecidableEq

namespace BotKeyRow

variable {affinity : NumericAffinity}

/-- The entry in the index `bot_key_uid_name`. -/
def uidName (_ : ℤ) (row : BotKeyRow affinity) : Option (ℤ × ColumnValue affinity.Number) :=
  some (row.uid, row.name)

/-- `update bot_key set last_used = ? where id = ?`. -/
def setLastUsed (rows : IndexedTable (@uidName affinity)) (kid : ℤ) (lastUsed : Option ℤ) :
    IndexedTable (@uidName affinity) :=
  rows.modify kid (fun row ↦ { row with lastUsed := lastUsed }) fun _ _ ↦ rfl

theorem get_setLastUsed (rows : IndexedTable (@uidName affinity)) (kid : ℤ) (lastUsed : Option ℤ)
    (kid' : ℤ) : (setLastUsed rows kid lastUsed).get kid' =
      if kid' = kid then (rows.get kid').map fun row ↦ { row with lastUsed := lastUsed }
      else rows.get kid' :=
  IndexedTable.get_modify

/-- What `load_users_cache` makes of a row. -/
def read (row : BotKeyRow affinity) : Option BotKey := do
  let name ← row.name.string
  let key ← row.key.string
  return ⟨name, key, row.createdAt, row.lastUsed⟩

/-- The row of a key. -/
structure Stores (row : BotKeyRow affinity) (uid : ℤ) (botKey : BotKey) : Prop where
  uid : row.uid = uid
  name : row.name = affinity.store botKey.name
  key : row.key = affinity.store botKey.key
  createdAt : row.createdAt = botKey.createdAt

end BotKeyRow

/-! ### The system -/

structure BotKeySystem (affinity : NumericAffinity) where
  accounts : Accounts
  botKeys : ℤ → OrderedMap ℤ BotKey
  rows : IndexedTable (@BotKeyRow.uidName affinity)
  nextKeyId : ℤ

inductive BotKeyError where
  | forbidden
  | unauthorized
  | conflictName
  | keyNotFound
  | internal
  deriving DecidableEq, Repr

inductive BotKeyAction where
  | accounts (a : AccountAction)
  | create (token : CurrentUser) (uid : {uid : ℤ // FitsI64 uid}) (name nonce : String) (now : ℤ)
  | delete (token : CurrentUser) (uid kid : ℤ)
  /-- A request of a bot. -/
  | request (apiKey : String) (now : ℤ)
  | sync
  | restart

namespace BotKeySystem

variable {affinity : NumericAffinity}

def start : BotKeySystem affinity := ⟨.start, fun _ ↦ .empty, .empty, 1⟩

/-- `create_bot_api_key`. -/
def createBotApiKey (f : CredentialFormats) (serverKey : String) (s : BotKeySystem affinity)
    (token : CurrentUser) (uid : ℤ) (name nonce : String) (now : ℤ) :
    Except BotKeyError (String × BotKeySystem affinity) := do
  ensure (token.isAdmin = true) .forbidden
  ensure ((s.accounts.users.get uid).isSome = true) .unauthorized
  ensure (¬∃ e ∈ (s.botKeys uid).entries, e.2.name = name) .conflictName
  let apiKey := String.ofList (f.createApiKey serverKey uid nonce)
  let rows ← okOr (s.rows.insert s.nextKeyId
    ⟨uid, affinity.store name, affinity.store apiKey, now, none⟩) .internal
  return (apiKey, { s with
    botKeys := Function.update s.botKeys uid
      ((s.botKeys uid).insert s.nextKeyId ⟨name, apiKey, now, none⟩)
    rows := rows
    nextKeyId := s.nextKeyId + 1 })

/-- `delete_bot_api_key`. -/
def deleteBotApiKey (s : BotKeySystem affinity) (token : CurrentUser) (uid kid : ℤ) :
    Except BotKeyError (BotKeySystem affinity) := do
  ensure (token.isAdmin = true) .forbidden
  ensure ((s.accounts.users.get uid).isSome = true) .unauthorized
  ensure (((s.botKeys uid).get kid).isSome = true) .keyNotFound
  return { s with
    botKeys := Function.update s.botKeys uid ((s.botKeys uid).erase kid)
    rows := s.rows.filter fun id _ ↦ id ≠ kid }

/-- `check_api_key`. The keys of a user are in a hash map; here they are searched by their ids. -/
def checkApiKey (s : BotKeySystem affinity) (uid : ℤ) (key : String) (now : ℤ) :
    Except BotKeyError (BotKeySystem affinity) := do
  ensure ((s.accounts.users.get uid).isSome = true) .unauthorized
  let e ← okOr ((s.botKeys uid).entries.find? fun e ↦ e.2.key = key) .unauthorized
  return { s with
    botKeys := Function.update s.botKeys uid
      ((s.botKeys uid).insert e.1 { e.2 with lastUsed := some now }) }

/-- What each request of a bot does first: as whom it is let in. -/
def authenticate (f : CredentialFormats) (serverKey : String) (s : BotKeySystem affinity)
    (apiKey : String) (now : ℤ) : Except BotKeyError (ℤ × BotKeySystem affinity) := do
  let uid ← okOr (f.parseApiKey serverKey apiKey.toList) .unauthorized
  let s' ← s.checkApiKey uid apiKey now
  return (uid, s')

/-- `sync_bot_key_last_used`. -/
def syncBotKeyLastUsed (s : BotKeySystem affinity) : BotKeySystem affinity :=
  { s with
    rows := (s.accounts.users.entries.flatMap fun e ↦ (s.botKeys e.1).entries).foldl
      (fun rows e ↦ BotKeyRow.setLastUsed rows e.1 e.2.lastUsed) s.rows }

/-- The keys of a user in the table. -/
def storedKeys (s : BotKeySystem affinity) (uid : ℤ) : OrderedMap ℤ BotKey :=
  OrderedMap.empty.insertAll (s.rows.table.rows.filterMap fun r ↦
    if r.2.uid = uid then r.2.read.map (r.1, ·) else none)

/-- The server is started again: `load_users_cache`. It does not start if a row of some user cannot
be read. -/
def restart (s : BotKeySystem affinity) : Option (BotKeySystem affinity) :=
  if ∀ e ∈ s.accounts.users.entries, ∀ r ∈ s.rows.table.rows, r.2.uid = e.1 → r.2.read.isSome then
    some { s with botKeys := s.storedKeys }
  else none

/-- Users are created, changed and deleted. A new user has no keys; those of a user that is deleted
go with it, in the table as its foreign key says. -/
def withAccounts (s : BotKeySystem affinity) (accounts : Accounts) : BotKeySystem affinity :=
  { s with
    accounts := accounts
    botKeys := fun uid ↦
      if (s.accounts.users.get uid).isSome ∧ (accounts.users.get uid).isSome then s.botKeys uid
      else .empty
    rows := s.rows.filter fun _ row ↦ (accounts.users.get row.uid).isSome }

/-- A request that is refused changes nothing. -/
def step (ph : PasswordHashing) (f : CredentialFormats) (serverKey : String)
    (s : BotKeySystem affinity) : BotKeyAction → Option (BotKeySystem affinity)
  | .accounts a => some (s.withAccounts (s.accounts.perform ph a))
  | .create token uid name nonce now =>
    some (((s.createBotApiKey f serverKey token uid name nonce now).toOption.map Prod.snd).getD s)
  | .delete token uid kid => some ((s.deleteBotApiKey token uid kid).toOption.getD s)
  | .request apiKey now =>
    some (((s.authenticate f serverKey apiKey now).toOption.map Prod.snd).getD s)
  | .sync => some s.syncBotKeyLastUsed
  | .restart => s.restart

end BotKeySystem

/-! ### The text of a key -/

section

variable {f : CredentialFormats} {serverKey : String} {uid : ℤ}

theorem parseApiKey_createApiKey (h : FitsI64 uid) (nonce : String) :
    f.parseApiKey serverKey (f.createApiKey serverKey uid nonce) = some uid := by
  rw [CredentialFormats.parseApiKey, CredentialFormats.createApiKey,
    CredentialFormats.verifyHex_writeHex, Option.bind_eq_bind, Option.bind_some,
    CredentialFormats.readApiKey_apiKeyContent h]
  rfl

/-- The brace that begins the content, so no key looks like a number. -/
theorem letter_mem_createApiKey (nonce : String) : 'b' ∈ f.createApiKey serverKey uid nonce := by
  have hbrace : (123 : Byte) ∈ apiKeyContent uid nonce := List.mem_cons_self
  exact Hex.digit_mem_encode (List.mem_append_right _ hbrace)

end

namespace NumericAffinity

variable {affinity : NumericAffinity}

theorem string_store {s s' : String} :
    (affinity.store s).string = some s' ↔ affinity.number s = none ∧ s' = s := by
  rw [store]
  cases affinity.number s with
  | none => exact ⟨fun h ↦ ⟨rfl, (Option.some.inj h).symm⟩, fun h ↦ congrArg some h.2.symm⟩
  | some n => exact ⟨fun h ↦ (by cases h), fun h ↦ (by cases h.1)⟩

end NumericAffinity

namespace BotKeyRow

variable {affinity : NumericAffinity} {row : BotKeyRow affinity} {uid : ℤ} {botKey botKey' : BotKey}

/-- What is read back of a key. -/
theorem Stores.read_eq_some_iff (h : row.Stores uid botKey)
    (hkey : affinity.number botKey.key = none) :
    row.read = some botKey' ↔
      affinity.number botKey.name = none ∧ botKey' = { botKey with lastUsed := row.lastUsed } := by
  rw [BotKeyRow.read, h.name, h.key, h.createdAt]
  simp only [Option.bind_eq_bind, Option.bind_eq_some_iff, NumericAffinity.string_store, hkey,
    Option.pure_def, Option.some_inj, true_and]
  constructor
  · rintro ⟨name, ⟨hname, rfl⟩, key, rfl, rfl⟩
    exact ⟨hname, rfl⟩
  · rintro ⟨hname, rfl⟩
    exact ⟨_, ⟨hname, rfl⟩, _, rfl, rfl⟩

end BotKeyRow

namespace BotKeySystem

variable {affinity : NumericAffinity} {ph : PasswordHashing} {f : CredentialFormats}
  {serverKey : String} {s t : BotKeySystem affinity} {a : BotKeyAction} {uid kid : ℤ}
  {botKey : BotKey}

/-! ### What the operations did -/

theorem createBotApiKey_eq_ok_iff {token : CurrentUser} {name nonce : String} {now : ℤ}
    {r : String × BotKeySystem affinity} :
    s.createBotApiKey f serverKey token uid name nonce now = .ok r ↔
      token.isAdmin = true ∧ (s.accounts.users.get uid).isSome = true ∧
        (¬∃ e ∈ (s.botKeys uid).entries, e.2.name = name) ∧
        ∃ rows, s.rows.insert s.nextKeyId ⟨uid, affinity.store name,
            affinity.store (String.ofList (f.createApiKey serverKey uid nonce)), now, none⟩ =
              some rows ∧
          (String.ofList (f.createApiKey serverKey uid nonce), { s with
            botKeys := Function.update s.botKeys uid ((s.botKeys uid).insert s.nextKeyId
              ⟨name, String.ofList (f.createApiKey serverKey uid nonce), now, none⟩)
            rows := rows
            nextKeyId := s.nextKeyId + 1 }) = r := by
  simp only [createBotApiKey, bind_eq_ok, okOr_eq_ok, ensure_eq_ok, exists_unit, pure_eq_ok]

theorem deleteBotApiKey_eq_ok_iff {token : CurrentUser} :
    s.deleteBotApiKey token uid kid = .ok t ↔
      token.isAdmin = true ∧ (s.accounts.users.get uid).isSome = true ∧
        ((s.botKeys uid).get kid).isSome = true ∧
        { s with
          botKeys := Function.update s.botKeys uid ((s.botKeys uid).erase kid)
          rows := s.rows.filter fun id _ ↦ id ≠ kid } = t := by
  simp only [deleteBotApiKey, bind_eq_ok, ensure_eq_ok, exists_unit, pure_eq_ok]

theorem authenticate_eq_ok_iff {apiKey : String} {now : ℤ} :
    s.authenticate f serverKey apiKey now = .ok (uid, t) ↔
      f.parseApiKey serverKey apiKey.toList = some uid ∧
        (s.accounts.users.get uid).isSome = true ∧
        ∃ e, (s.botKeys uid).entries.find? (fun e ↦ e.2.key = apiKey) = some e ∧
          { s with
            botKeys := Function.update s.botKeys uid
              ((s.botKeys uid).insert e.1 { e.2 with lastUsed := some now }) } = t := by
  simp only [authenticate, checkApiKey, bind_eq_ok, okOr_eq_ok, ensure_eq_ok, exists_unit,
    pure_eq_ok, Prod.mk.injEq]
  constructor
  · rintro ⟨uid', hparse, s', ⟨huser, e, he, rfl⟩, rfl, rfl⟩
    exact ⟨hparse, huser, e, he, rfl⟩
  · rintro ⟨hparse, huser, e, he, rfl⟩
    exact ⟨uid, hparse, _, ⟨huser, e, he, rfl⟩, rfl, rfl⟩

/-! ### The invariant -/

/-- A key of the cache. -/
structure Sound (f : CredentialFormats) (serverKey : String) (s : BotKeySystem affinity)
    (uid kid : ℤ) (botKey : BotKey) : Prop where
  id : kid < s.nextKeyId
  user : (s.accounts.users.get uid).isSome = true
  fits : FitsI64 uid
  made : ∃ nonce, botKey.key = String.ofList (f.createApiKey serverKey uid nonce)
  stored : ∃ row, s.rows.get kid = some row ∧ row.Stores uid botKey

/-- The cache and the table have the same keys. -/
structure Inv (f : CredentialFormats) (serverKey : String) (s : BotKeySystem affinity) : Prop where
  accounts : s.accounts.Inv
  keys : ∀ uid kid botKey, (s.botKeys uid).get kid = some botKey →
    s.Sound f serverKey uid kid botKey
  rows : ∀ kid row, s.rows.get kid = some row → ((s.botKeys row.uid).get kid).isSome = true

theorem inv_start : (start : BotKeySystem affinity).Inv f serverKey where
  accounts := Accounts.inv_start
  keys _ _ _ h := by cases h
  rows _ _ h := by cases h

/-- Rows and keys keep everything but the last use. -/
theorem Sound.of_same (h : s.Sound f serverKey uid kid botKey) {botKey' : BotKey}
    (hsame : botKey' = { botKey with lastUsed := botKey'.lastUsed })
    (hid : s.nextKeyId ≤ t.nextKeyId) (huser : (t.accounts.users.get uid).isSome = true)
    (hrows : ∀ row, s.rows.get kid = some row → row.uid = uid →
      ∃ lastUsed, t.rows.get kid = some { row with lastUsed := lastUsed }) :
    t.Sound f serverKey uid kid botKey' := by
  obtain ⟨hold, -, hfits, hmade, row, hrow, hstores⟩ := h
  obtain ⟨lastUsed, hrow'⟩ := hrows row hrow hstores.uid
  rw [hsame]
  exact ⟨hold.trans_le hid, huser, hfits, hmade, _, hrow',
    hstores.uid, hstores.name, hstores.key, hstores.createdAt⟩

/-- The row of a key of the cache. -/
theorem Inv.stores (h : s.Inv f serverKey) (hkey : (s.botKeys uid).get kid = some botKey)
    {row : BotKeyRow affinity} (hrow : s.rows.get kid = some row) : row.Stores uid botKey := by
  obtain ⟨row', hrow', hstores⟩ := (h.keys uid kid botKey hkey).stored
  exact Option.some.inj (hrow.symm.trans hrow') ▸ hstores

/-- An id is the id of one key. -/
theorem Inv.uid_unique (h : s.Inv f serverKey) {uid' : ℤ} {botKey' : BotKey}
    (hkey : (s.botKeys uid).get kid = some botKey)
    (hkey' : (s.botKeys uid').get kid = some botKey') : uid = uid' := by
  obtain ⟨row, hrow, hstores⟩ := (h.keys uid kid botKey hkey).stored
  exact hstores.uid.symm.trans (h.stores hkey' hrow).uid

theorem Sound.number_key (h : s.Sound f serverKey uid kid botKey) :
    affinity.number botKey.key = none := by
  obtain ⟨nonce, hkey⟩ := h.made
  refine affinity.number_of_letter _ ?_
  rw [hkey, String.toList_ofList]
  exact letter_mem_createApiKey nonce

/-! ### What a step does to the keys -/

/-- The user has this key in the cache, under this id. -/
def Has (s : BotKeySystem affinity) (uid kid : ℤ) (apiKey : String) : Prop :=
  ∃ botKey, (s.botKeys uid).get kid = some botKey ∧ botKey.key = apiKey

/-- An administrator is answered with a new key. -/
def Issues (f : CredentialFormats) (serverKey : String) (uid kid : ℤ) (apiKey : String)
    (s : BotKeySystem affinity) (a : BotKeyAction) : Prop :=
  ∃ token fits name nonce now t, a = .create token ⟨uid, fits⟩ name nonce now ∧
    s.createBotApiKey f serverKey token uid name nonce now = .ok (apiKey, t) ∧ kid = s.nextKeyId

/-- An administrator deletes the key. -/
def Deletes (uid kid : ℤ) (_ : BotKeySystem affinity) (a : BotKeyAction) : Prop :=
  ∃ token, a = .delete token uid kid ∧ token.isAdmin = true

/-- What a step did to users and keys. -/
structure Did (f : CredentialFormats) (serverKey : String) (s : BotKeySystem affinity)
    (a : BotKeyAction) (t : BotKeySystem affinity) : Prop where
  inv : t.Inv f serverKey
  nextUid : s.accounts.nextUid ≤ t.accounts.nextUid
  users : ∀ uid, uid < s.accounts.nextUid → (t.accounts.users.get uid).isSome = true →
    (s.accounts.users.get uid).isSome = true
  has : ∀ uid kid apiKey, t.Has uid kid apiKey ↔ (t.accounts.users.get uid).isSome = true ∧
    (Issues f serverKey uid kid apiKey s a ∨ s.Has uid kid apiKey ∧ ¬Deletes uid kid s a)

theorem Inv.user_of_has (h : s.Inv f serverKey) {apiKey : String} (hhas : s.Has uid kid apiKey) :
    (s.accounts.users.get uid).isSome = true := by
  obtain ⟨botKey, hkey, -⟩ := hhas
  exact (h.keys uid kid botKey hkey).user

theorem not_issues (h : ∀ token uid name nonce now, a ≠ .create token uid name nonce now)
    (apiKey : String) : ¬Issues f serverKey uid kid apiKey s a := by
  rintro ⟨token, fits, name, nonce, now, -, ha, -⟩
  exact h token _ name nonce now ha

theorem not_deletes (h : ∀ token uid kid, a ≠ .delete token uid kid) : ¬Deletes uid kid s a := by
  rintro ⟨token, ha, -⟩
  exact h token uid kid ha

/-- A step that neither makes nor deletes keys, and leaves the users alone. -/
theorem Inv.did_of_same (h : s.Inv f serverKey) (hinv : t.Inv f serverKey)
    (haccounts : t.accounts = s.accounts)
    (hissues : ∀ uid kid apiKey, ¬Issues f serverKey uid kid apiKey s a)
    (hdeletes : ∀ uid kid apiKey, s.Has uid kid apiKey → ¬Deletes uid kid s a)
    (hhas : ∀ uid kid apiKey, t.Has uid kid apiKey ↔ s.Has uid kid apiKey) :
    Did f serverKey s a t where
  inv := hinv
  nextUid := haccounts ▸ le_rfl
  users uid _ huser := haccounts ▸ huser
  has uid kid apiKey := by
    rw [hhas, or_iff_right (hissues uid kid apiKey), haccounts]
    exact ⟨fun hs ↦ ⟨h.user_of_has hs, hs, hdeletes uid kid apiKey hs⟩, fun hs ↦ hs.2.1⟩

theorem get_update_insert (keys : ℤ → OrderedMap ℤ BotKey) (uid kid : ℤ) (botKey : BotKey)
    (uid' kid' : ℤ) :
    (Function.update keys uid ((keys uid).insert kid botKey) uid').get kid' =
      if uid' = uid ∧ kid' = kid then some botKey else (keys uid').get kid' := by
  by_cases huid : uid' = uid
  · subst huid
    rw [Function.update_self, OrderedMap.get_insert]
    exact if_congr (and_iff_right rfl).symm rfl rfl
  · rw [Function.update_of_ne huid, if_neg fun h ↦ huid h.1]

theorem get_update_erase (keys : ℤ → OrderedMap ℤ BotKey) (uid kid uid' kid' : ℤ) :
    (Function.update keys uid ((keys uid).erase kid) uid').get kid' =
      if uid' = uid ∧ kid' = kid then none else (keys uid').get kid' := by
  by_cases huid : uid' = uid
  · subst huid
    rw [Function.update_self, OrderedMap.get_erase]
    exact if_congr (and_iff_right rfl).symm rfl rfl
  · rw [Function.update_of_ne huid, if_neg fun h ↦ huid h.1]

theorem Inv.did_create (h : s.Inv f serverKey) {token : CurrentUser}
    {uid : {uid : ℤ // FitsI64 uid}} {name nonce : String} {now : ℤ} {apiKey : String}
    (hcreate : s.createBotApiKey f serverKey token uid name nonce now = .ok (apiKey, t)) :
    Did f serverKey s (.create token uid name nonce now) t := by
  obtain ⟨-, huser, -, rows, hrows, heq⟩ := createBotApiKey_eq_ok_iff.1 hcreate
  obtain ⟨rfl, rfl⟩ := Prod.mk.inj heq
  have hget := get_update_insert s.botKeys uid s.nextKeyId
    ⟨name, String.ofList (f.createApiKey serverKey uid nonce), now, none⟩
  have hnext : ∀ uid botKey, (s.botKeys uid).get s.nextKeyId ≠ some botKey := fun uid botKey hkey ↦
    (h.keys uid _ botKey hkey).id.false
  refine ⟨⟨h.accounts, fun uid' kid' botKey' hkey ↦ ?_, fun kid' row hrow ↦ ?_⟩, le_rfl,
    fun _ _ huser ↦ huser, fun uid' kid' apiKey ↦ ?_⟩
  · rw [hget] at hkey
    split at hkey
    · rename_i hnew
      obtain ⟨rfl, rfl⟩ := hnew
      obtain rfl := Option.some.inj hkey
      exact ⟨Int.lt_add_one_iff.2 le_rfl, huser, uid.2, ⟨nonce, rfl⟩, _,
        (IndexedTable.get_insert hrows _).trans (if_pos rfl), rfl, rfl, rfl, rfl⟩
    · obtain ⟨hid, huser', hfits, hmade, row, hrow, hstores⟩ := h.keys uid' kid' botKey' hkey
      exact ⟨hid.trans (Int.lt_add_one_iff.2 le_rfl), huser', hfits, hmade, row,
        IndexedTable.get_insert_of_get hrows hrow, hstores⟩
  · rw [IndexedTable.get_insert hrows] at hrow
    rw [hget]
    split at hrow
    · obtain rfl := Option.some.inj hrow
      rename_i hkid
      rw [if_pos ⟨rfl, hkid⟩]
      rfl
    · rename_i hkid
      rw [if_neg fun hnew ↦ hkid hnew.2]
      exact h.rows kid' row hrow
  · rw [and_iff_left (not_deletes fun _ _ _ h ↦ BotKeyAction.noConfusion h), Has]
    constructor
    · rintro ⟨botKey', hkey, rfl⟩
      rw [hget] at hkey
      split at hkey
      · rename_i hnew
        obtain ⟨rfl, rfl⟩ := hnew
        obtain rfl := Option.some.inj hkey
        exact ⟨huser, .inl ⟨token, uid.2, name, nonce, now, _, rfl, hcreate, rfl⟩⟩
      · exact ⟨(h.keys uid' kid' botKey' hkey).user, .inr ⟨botKey', hkey, rfl⟩⟩
    · rintro ⟨-, ⟨token', fits, name', nonce', now', t, ha, hcreate', rfl⟩ | ⟨botKey', hkey, rfl⟩⟩
      · obtain ⟨rfl, rfl, rfl, rfl, rfl⟩ := BotKeyAction.create.inj ha
        obtain ⟨rfl, -⟩ := Prod.mk.inj (Except.ok.inj (hcreate.symm.trans hcreate'))
        exact ⟨_, (hget _ _).trans (if_pos ⟨rfl, rfl⟩), rfl⟩
      · refine ⟨botKey', (hget _ _).trans ((if_neg ?_).trans hkey), rfl⟩
        rintro ⟨-, rfl⟩
        exact hnext uid' botKey' hkey

theorem Inv.did_delete (h : s.Inv f serverKey) {token : CurrentUser}
    (hdelete : s.deleteBotApiKey token uid kid = .ok t) :
    Did f serverKey s (.delete token uid kid) t := by
  obtain ⟨htoken, huser, hold, rfl⟩ := deleteBotApiKey_eq_ok_iff.1 hdelete
  obtain ⟨old, hold⟩ := Option.isSome_iff_exists.1 hold
  have hget := get_update_erase s.botKeys uid kid
  refine ⟨⟨h.accounts, fun uid' kid' botKey' hkey ↦ ?_, fun kid' row hrow ↦ ?_⟩, le_rfl,
    fun _ _ huser ↦ huser, fun uid' kid' apiKey ↦ ?_⟩
  · rw [hget, Option.ite_none_left_eq_some] at hkey
    obtain ⟨hne, hkey⟩ := hkey
    obtain ⟨hid, huser', hfits, hmade, row, hrow, hstores⟩ := h.keys uid' kid' botKey' hkey
    have hkid : kid' ≠ kid := by
      rintro rfl
      exact hne ⟨h.uid_unique hkey hold, rfl⟩
    exact ⟨hid, huser', hfits, hmade, row,
      IndexedTable.get_filter.2 ⟨hrow, decide_eq_true hkid⟩, hstores⟩
  · obtain ⟨hrow, hkid⟩ := IndexedTable.get_filter.1 hrow
    rw [hget, if_neg fun heq ↦ of_decide_eq_true hkid heq.2]
    exact h.rows kid' row hrow
  · have hdeletes : Deletes uid' kid' s (.delete token uid kid) ↔ uid' = uid ∧ kid' = kid := by
      constructor
      · rintro ⟨token', ha, -⟩
        obtain ⟨-, rfl, rfl⟩ := BotKeyAction.delete.inj ha
        exact ⟨rfl, rfl⟩
      · rintro ⟨rfl, rfl⟩
        exact ⟨token, rfl, htoken⟩
    rw [or_iff_right (not_issues (fun _ _ _ _ _ h ↦ BotKeyAction.noConfusion h) _), hdeletes, Has]
    constructor
    · rintro ⟨botKey', hkey, rfl⟩
      rw [hget, Option.ite_none_left_eq_some] at hkey
      exact ⟨(h.keys uid' kid' botKey' hkey.2).user, ⟨botKey', hkey.2, rfl⟩, hkey.1⟩
    · rintro ⟨-, ⟨botKey', hkey, rfl⟩, hne⟩
      exact ⟨botKey', (hget _ _).trans ((if_neg hne).trans hkey), rfl⟩

/-- The key that was used has a new time. -/
theorem Inv.did_request (h : s.Inv f serverKey) {apiKey : String} {now : ℤ}
    (hrequest : s.authenticate f serverKey apiKey now = .ok (uid, t)) :
    Did f serverKey s (.request apiKey now) t := by
  obtain ⟨-, huser, e, he, rfl⟩ := authenticate_eq_ok_iff.1 hrequest
  have hold : (s.botKeys uid).get e.1 = some e.2 :=
    OrderedMap.get_eq_some.2 (List.mem_of_find?_eq_some he)
  have hget := get_update_insert s.botKeys uid e.1 { e.2 with lastUsed := some now }
  refine h.did_of_same ⟨h.accounts, fun uid' kid' botKey' hkey ↦ ?_, fun kid' row hrow ↦ ?_⟩ rfl
    (fun _ _ ↦ not_issues fun _ _ _ _ _ h ↦ BotKeyAction.noConfusion h)
    (fun _ _ _ _ ↦ not_deletes fun _ _ _ h ↦ BotKeyAction.noConfusion h)
    fun uid' kid' apiKey' ↦ ?_
  · rw [hget] at hkey
    split at hkey
    · rename_i hused
      obtain ⟨rfl, rfl⟩ := hused
      obtain rfl := Option.some.inj hkey
      exact (h.keys uid' _ _ hold).of_same rfl le_rfl huser fun row hrow _ ↦ ⟨_, hrow⟩
    · have hsound := h.keys uid' kid' botKey' hkey
      exact hsound.of_same rfl le_rfl hsound.user fun row hrow _ ↦ ⟨_, hrow⟩
  · rw [hget]
    split
    · rfl
    · exact h.rows kid' row hrow
  · simp only [Has, hget]
    split
    · rename_i hused
      obtain ⟨rfl, rfl⟩ := hused
      rw [hold]
      constructor
      · rintro ⟨_, ⟨⟩, hkey⟩
        exact ⟨_, rfl, hkey⟩
      · rintro ⟨_, ⟨⟩, hkey⟩
        exact ⟨_, rfl, hkey⟩
    · exact Iff.rfl

theorem Inv.did_accounts (h : s.Inv f serverKey) (ph : PasswordHashing) (a : AccountAction) :
    Did f serverKey s (.accounts a) (s.withAccounts (s.accounts.perform ph a)) := by
  have hwrote : Accounts.Wrote s.accounts a (s.accounts.perform ph a) := s.accounts.wrote a
  have hget : ∀ uid kid botKey,
      ((s.withAccounts (s.accounts.perform ph a)).botKeys uid).get kid = some botKey ↔
        ((s.accounts.perform ph a).users.get uid).isSome = true ∧
          (s.botKeys uid).get kid = some botKey := by
    intro uid kid botKey
    rw [withAccounts]
    show (ite _ _ _ : OrderedMap ℤ BotKey).get kid = some botKey ↔ _
    split
    · rename_i hboth
      exact (and_iff_right hboth.2).symm
    · rename_i hboth
      exact iff_of_false (fun h' ↦ by cases h') fun h' ↦ hboth ⟨(h.keys _ _ _ h'.2).user, h'.1⟩
  refine ⟨⟨hwrote.inv h.accounts, fun uid' kid' botKey' hkey ↦ ?_, fun kid' row hrow ↦ ?_⟩,
    hwrote.nextUid_le, fun uid hlt huser ↦ hwrote.isSome_of_isSome hlt huser,
    fun uid' kid' apiKey ↦ ?_⟩
  · obtain ⟨huser, hkey⟩ := (hget uid' kid' botKey').1 hkey
    refine (h.keys uid' kid' botKey' hkey).of_same rfl le_rfl huser fun row hrow hrowUid ↦
      ⟨row.lastUsed, ?_⟩
    exact IndexedTable.get_filter.2 ⟨hrow, hrowUid ▸ huser⟩
  · obtain ⟨hrow, huser⟩ := IndexedTable.get_filter.1 hrow
    obtain ⟨botKey', hkey⟩ := Option.isSome_iff_exists.1 (h.rows kid' row hrow)
    exact Option.isSome_iff_exists.2 ⟨botKey', (hget row.uid kid' botKey').2 ⟨huser, hkey⟩⟩
  · rw [or_iff_right (not_issues (fun _ _ _ _ _ h ↦ BotKeyAction.noConfusion h) _),
      and_iff_left (not_deletes fun _ _ _ h ↦ BotKeyAction.noConfusion h)]
    constructor
    · rintro ⟨botKey', hkey, rfl⟩
      exact ⟨((hget _ _ _).1 hkey).1, botKey', ((hget _ _ _).1 hkey).2, rfl⟩
    · rintro ⟨huser, botKey', hkey, rfl⟩
      exact ⟨botKey', (hget _ _ _).2 ⟨huser, hkey⟩, rfl⟩

/-! ### Writing the last use, and reading the keys -/

theorem get_foldl_setLastUsed (es : List (ℤ × BotKey))
    (rows : IndexedTable (@BotKeyRow.uidName affinity)) (kid : ℤ) :
    (es.foldl (fun rows e ↦ BotKeyRow.setLastUsed rows e.1 e.2.lastUsed) rows).get kid =
      (rows.get kid).map fun row ↦ { row with
        lastUsed := es.foldl (fun last e ↦ if e.1 = kid then e.2.lastUsed else last)
          row.lastUsed } := by
  induction es generalizing rows with
  | nil => exact (congrFun Option.map_id _).symm
  | cons e es ih =>
    rw [List.foldl_cons, ih, BotKeyRow.get_setLastUsed]
    split
    · rename_i hkid
      rw [Option.map_map]
      refine congrArg (Option.map · _) (funext fun row ↦ ?_)
      rw [List.foldl_cons, if_pos hkid.symm]
      rfl
    · rename_i hkid
      refine congrArg (Option.map · _) (funext fun row ↦ ?_)
      rw [List.foldl_cons, if_neg (Ne.symm hkid)]

/-- All entries of an id say the same of its last use. -/
theorem foldl_lastUsed {es : List (ℤ × BotKey)} {x : Option ℤ}
    (h : ∀ e ∈ es, e.1 = kid → e.2.lastUsed = x) (init : Option ℤ)
    (hmem : (∃ e ∈ es, e.1 = kid) ∨ init = x) :
    es.foldl (fun last e ↦ if e.1 = kid then e.2.lastUsed else last) init = x := by
  induction es generalizing init with
  | nil => exact hmem.resolve_left fun ⟨e, he, _⟩ ↦ by cases he
  | cons e es ih =>
    rw [List.foldl_cons]
    refine ih (fun d hd ↦ h d (List.mem_cons_of_mem e hd)) _ ?_
    split
    · rename_i hkid
      exact .inr (h e List.mem_cons_self hkid)
    · rename_i hkid
      refine hmem.imp (fun ⟨d, hd, hdkid⟩ ↦ ?_) id
      rcases List.mem_cons.1 hd with rfl | hd
      · exact absurd hdkid hkid
      · exact ⟨d, hd, hdkid⟩

/-- **After a sync** the row of a key has its last use. -/
theorem Inv.get_sync (h : s.Inv f serverKey) (hkey : (s.botKeys uid).get kid = some botKey)
    {row : BotKeyRow affinity} (hrow : s.rows.get kid = some row) :
    s.syncBotKeyLastUsed.rows.get kid = some { row with lastUsed := botKey.lastUsed } := by
  refine (get_foldl_setLastUsed _ _ _).trans ?_
  rw [hrow, Option.map_some, foldl_lastUsed (x := botKey.lastUsed)]
  · rintro ⟨kid', botKey'⟩ he rfl
    obtain ⟨e, -, he⟩ := List.mem_flatMap.1 he
    have hkey' := OrderedMap.get_eq_some.2 he
    obtain rfl := h.uid_unique hkey hkey'
    obtain rfl := Option.some.inj (hkey.symm.trans hkey')
    rfl
  · obtain ⟨user, huser⟩ := Option.isSome_iff_exists.1 (h.keys uid kid botKey hkey).user
    exact .inl ⟨(kid, botKey), List.mem_flatMap.2 ⟨(uid, user), OrderedMap.get_eq_some.1 huser,
      OrderedMap.get_eq_some.1 hkey⟩, rfl⟩

theorem Inv.did_sync (h : s.Inv f serverKey) : Did f serverKey s .sync s.syncBotKeyLastUsed := by
  refine h.did_of_same ⟨h.accounts, fun uid kid botKey hkey ↦ ?_, fun kid row hrow ↦ ?_⟩ rfl
    (fun _ _ ↦ not_issues fun _ _ _ _ _ h ↦ BotKeyAction.noConfusion h)
    (fun _ _ _ _ ↦ not_deletes fun _ _ _ h ↦ BotKeyAction.noConfusion h) fun _ _ _ ↦ Iff.rfl
  · have hsound := h.keys uid kid botKey hkey
    exact hsound.of_same rfl le_rfl hsound.user fun row hrow _ ↦ ⟨_, h.get_sync hkey hrow⟩
  · obtain ⟨old, hold, rfl⟩ :=
      Option.map_eq_some_iff.1 ((get_foldl_setLastUsed _ _ _).symm.trans hrow)
    exact h.rows kid old hold

theorem get_storedKeys : (s.storedKeys uid).get kid = some botKey ↔
    ∃ row, s.rows.get kid = some row ∧ row.uid = uid ∧ row.read = some botKey := by
  have hmem : ∀ botKey, (kid, botKey) ∈ (s.rows.table.rows.filterMap fun r ↦
      if r.2.uid = uid then r.2.read.map (r.1, ·) else none) ↔
        ∃ row, s.rows.get kid = some row ∧ row.uid = uid ∧ row.read = some botKey := by
    intro botKey
    rw [List.mem_filterMap]
    constructor
    · rintro ⟨⟨kid', row⟩, hr, hread⟩
      obtain ⟨huid, hread⟩ := Option.ite_none_right_eq_some.1 hread
      obtain ⟨_, hbotKey, heq⟩ := Option.map_eq_some_iff.1 hread
      obtain ⟨rfl, rfl⟩ := Prod.mk.inj heq
      exact ⟨row, Table.get_eq_some.2 hr, huid, hbotKey⟩
    · rintro ⟨row, hrow, huid, hread⟩
      exact ⟨(kid, row), Table.get_eq_some.1 hrow, Option.ite_none_right_eq_some.2
        ⟨huid, Option.map_eq_some_iff.2 ⟨botKey, hread, rfl⟩⟩⟩
  rw [storedKeys, OrderedMap.get_insertAll_eq_some, hmem]
  · exact or_iff_left fun h ↦ by cases h.2
  · intro v w hv hw
    obtain ⟨row, hrow, -, hv⟩ := (hmem v).1 hv
    obtain ⟨row', hrow', -, hw⟩ := (hmem w).1 hw
    obtain rfl := Option.some.inj (hrow.symm.trans hrow')
    exact Option.some.inj (hv.symm.trans hw)

/-- The server starts if no name of a key was taken for a number. -/
theorem Inv.restart_isSome_iff (h : s.Inv f serverKey) : s.restart.isSome = true ↔
    ∀ uid kid botKey, (s.botKeys uid).get kid = some botKey →
      affinity.number botKey.name = none := by
  rw [restart, Option.isSome_ite]
  constructor
  · intro hread uid kid botKey hkey
    have hsound := h.keys uid kid botKey hkey
    obtain ⟨user, huser⟩ := Option.isSome_iff_exists.1 hsound.user
    obtain ⟨row, hrow, hstores⟩ := hsound.stored
    obtain ⟨botKey', hbotKey'⟩ := Option.isSome_iff_exists.1 (hread _
      (OrderedMap.get_eq_some.1 huser) _ (Table.get_eq_some.1 hrow) hstores.uid)
    exact ((hstores.read_eq_some_iff hsound.number_key).1 hbotKey').1
  · rintro hnames ⟨uid, user⟩ - ⟨kid, row⟩ hr rfl
    have hrow : s.rows.get kid = some row := Table.get_eq_some.2 hr
    obtain ⟨botKey, hkey⟩ := Option.isSome_iff_exists.1 (h.rows kid row hrow)
    have hsound := h.keys row.uid kid botKey hkey
    exact Option.isSome_iff_exists.2 ⟨_, ((h.stores hkey hrow).read_eq_some_iff
      hsound.number_key).2 ⟨hnames row.uid kid botKey hkey, rfl⟩⟩

/-- The keys after a start. -/
theorem Inv.get_restart (h : s.Inv f serverKey) (ht : s.restart = some t) (uid kid : ℤ) :
    (t.botKeys uid).get kid = ((s.botKeys uid).get kid).map fun botKey ↦
      { botKey with lastUsed := (s.rows.get kid).bind BotKeyRow.lastUsed } := by
  have hnames := h.restart_isSome_iff.1 (by rw [ht]; rfl)
  obtain ⟨-, hread⟩ := Option.ite_none_right_eq_some.1 ht
  obtain rfl := Option.some.inj hread
  refine Option.ext fun botKey' ↦ get_storedKeys.trans ?_
  rw [Option.map_eq_some_iff]
  constructor
  · rintro ⟨row, hrow, rfl, hread⟩
    obtain ⟨botKey, hkey⟩ := Option.isSome_iff_exists.1 (h.rows kid row hrow)
    obtain ⟨-, rfl⟩ := ((h.stores hkey hrow).read_eq_some_iff
      (h.keys row.uid kid botKey hkey).number_key).1 hread
    rw [hrow]
    exact ⟨botKey, hkey, rfl⟩
  · rintro ⟨botKey, hkey, rfl⟩
    have hsound := h.keys uid kid botKey hkey
    obtain ⟨row, hrow, hstores⟩ := hsound.stored
    refine ⟨row, hrow, hstores.uid, ?_⟩
    rw [hrow]
    exact (hstores.read_eq_some_iff hsound.number_key).2 ⟨hnames uid kid botKey hkey, rfl⟩

theorem Inv.did_restart (h : s.Inv f serverKey) (ht : s.restart = some t) :
    Did f serverKey s .restart t := by
  have hget := h.get_restart ht
  obtain ⟨-, hread⟩ := Option.ite_none_right_eq_some.1 ht
  obtain rfl := Option.some.inj hread
  refine h.did_of_same ⟨h.accounts, fun uid kid botKey hkey ↦ ?_, fun kid row hrow ↦ ?_⟩ rfl
    (fun _ _ ↦ not_issues fun _ _ _ _ _ h ↦ BotKeyAction.noConfusion h)
    (fun _ _ _ _ ↦ not_deletes fun _ _ _ h ↦ BotKeyAction.noConfusion h) fun uid kid apiKey ↦ ?_
  · obtain ⟨old, hold, rfl⟩ := Option.map_eq_some_iff.1 ((hget uid kid).symm.trans hkey)
    have hsound := h.keys uid kid old hold
    exact hsound.of_same rfl le_rfl hsound.user fun row hrow _ ↦ ⟨_, hrow⟩
  · rw [hget, Option.isSome_map]
    exact h.rows kid row hrow
  · constructor
    · rintro ⟨botKey', hkey, rfl⟩
      obtain ⟨old, hold, rfl⟩ := Option.map_eq_some_iff.1 ((hget uid kid).symm.trans hkey)
      exact ⟨old, hold, rfl⟩
    · rintro ⟨old, hold, rfl⟩
      exact ⟨_, (hget uid kid).trans (Option.map_eq_some_iff.2 ⟨old, hold, rfl⟩), rfl⟩

/-! ### Runs -/

/-- **What a step does.** -/
theorem Inv.did (h : s.Inv f serverKey) (hstep : s.step ph f serverKey a = some t) :
    Did f serverKey s a t := by
  cases a with
  | accounts a =>
    obtain rfl := Option.some.inj hstep
    exact h.did_accounts ph a
  | create token uid name nonce now =>
    obtain rfl := Option.some.inj hstep
    cases hcreate : s.createBotApiKey f serverKey token uid name nonce now with
    | ok r => exact h.did_create hcreate
    | error e =>
      refine h.did_of_same h rfl ?_
        (fun _ _ _ _ ↦ not_deletes fun _ _ _ h ↦ BotKeyAction.noConfusion h) fun _ _ _ ↦ Iff.rfl
      rintro uid' kid apiKey ⟨token', fits, name', nonce', now', t, ha, hcreate', -⟩
      obtain ⟨rfl, rfl, rfl, rfl, rfl⟩ := BotKeyAction.create.inj ha
      cases hcreate.symm.trans hcreate'
  | delete token uid kid =>
    obtain rfl := Option.some.inj hstep
    cases hdelete : s.deleteBotApiKey token uid kid with
    | ok t => exact h.did_delete hdelete
    | error e =>
      refine h.did_of_same h rfl
        (fun _ _ ↦ not_issues fun _ _ _ _ _ h ↦ BotKeyAction.noConfusion h) ?_ fun _ _ _ ↦ Iff.rfl
      rintro uid' kid' apiKey hhas ⟨token', ha, htoken⟩
      obtain ⟨rfl, rfl, rfl⟩ := BotKeyAction.delete.inj ha
      have huser := h.user_of_has hhas
      obtain ⟨botKey, hkey, -⟩ := hhas
      cases hdelete.symm.trans (deleteBotApiKey_eq_ok_iff.2
        ⟨htoken, huser, Option.isSome_of_eq_some hkey, rfl⟩)
  | request apiKey now =>
    obtain rfl := Option.some.inj hstep
    cases hrequest : s.authenticate f serverKey apiKey now with
    | ok r => exact h.did_request hrequest
    | error e =>
      exact h.did_of_same h rfl (fun _ _ ↦ not_issues fun _ _ _ _ _ h ↦ BotKeyAction.noConfusion h)
        (fun _ _ _ _ ↦ not_deletes fun _ _ _ h ↦ BotKeyAction.noConfusion h) fun _ _ _ ↦ Iff.rfl
  | sync =>
    obtain rfl := Option.some.inj hstep
    exact h.did_sync
  | restart => exact h.did_restart hstep

theorem inv_of_run {as : List BotKeyAction} (hrun : run (step ph f serverKey) start as = some s) :
    s.Inv f serverKey :=
  run_induction (fun _ _ _ h hstep ↦ (h.did hstep).inv) inv_start hrun

/-- In the run an administrator was answered with the key, and nobody deleted it since. -/
def Live (affinity : NumericAffinity) (ph : PasswordHashing) (f : CredentialFormats)
    (serverKey : String) (as : List BotKeyAction) (uid kid : ℤ) (apiKey : String) : Prop :=
  Since (step ph f serverKey) (Issues f serverKey uid kid apiKey) (Deletes uid kid)
    (start : BotKeySystem affinity) as

/-- The keys in the cache are those that were made and not deleted since. -/
theorem has_iff_live {as : List BotKeyAction}
    (hrun : run (step ph f serverKey) start as = some s) (uid kid : ℤ) (apiKey : String) :
    s.Has uid kid apiKey ↔
      (s.accounts.users.get uid).isSome = true ∧
        Live affinity ph f serverKey as uid kid apiKey := by
  refine holds_iff_since (fun s ↦ s.Inv f serverKey) (fun s ↦ s.Has uid kid apiKey)
    (fun s ↦ (s.accounts.users.get uid).isSome = true) (fun s ↦ uid < s.accounts.nextUid)
    (fun _ _ _ h hstep ↦ (h.did hstep).inv) (fun _ _ _ h hstep ↦ (h.did hstep).has uid kid apiKey)
    (fun s a t h hstep hknown ↦ ?_) (fun _ _ _ h hstep ↦ (h.did hstep).users uid) inv_start
    (fun ⟨_, h, _⟩ ↦ by cases h) hrun
  refine lt_of_lt_of_le ?_ (h.did hstep).nextUid
  rcases hknown with ⟨token, fits, name, nonce, now, t, -, hcreate, -⟩ | hlt
  · obtain ⟨-, huser, -⟩ := createBotApiKey_eq_ok_iff.1 hcreate
    obtain ⟨user, huser⟩ := Option.isSome_iff_exists.1 huser
    exact h.accounts.uids uid user huser
  · exact hlt

/-- **Who is let in as a bot**: who shows a key that an administrator made for a user that is still
there, and that was not deleted since. -/
theorem authenticate_iff {as : List BotKeyAction}
    (hrun : run (step ph f serverKey) start as = some s) (apiKey : String) (now uid : ℤ) :
    (∃ t, s.authenticate f serverKey apiKey now = .ok (uid, t)) ↔
      (s.accounts.users.get uid).isSome = true ∧ ∃ kid,
        Live affinity ph f serverKey as uid kid apiKey := by
  have hinv := inv_of_run hrun
  have hhas : (∃ kid, s.Has uid kid apiKey) ↔ (s.accounts.users.get uid).isSome = true ∧ ∃ kid,
      Live affinity ph f serverKey as uid kid apiKey :=
    (exists_congr fun kid ↦ has_iff_live hrun uid kid apiKey).trans exists_and_left
  rw [← hhas]
  constructor
  · rintro ⟨t, ht⟩
    obtain ⟨-, -, e, he, -⟩ := authenticate_eq_ok_iff.1 ht
    have hkey := List.find?_some he
    exact ⟨e.1, e.2, OrderedMap.get_eq_some.2 (List.mem_of_find?_eq_some he),
      of_decide_eq_true hkey⟩
  · rintro ⟨kid, botKey, hkey, rfl⟩
    have hsound := hinv.keys uid kid botKey hkey
    have hfound : ((s.botKeys uid).entries.find? fun e ↦ e.2.key = botKey.key).isSome = true :=
      List.find?_isSome.2 ⟨(kid, botKey), OrderedMap.get_eq_some.1 hkey, decide_eq_true rfl⟩
    obtain ⟨e, he⟩ := Option.isSome_iff_exists.1 hfound
    refine ⟨_, authenticate_eq_ok_iff.2 ⟨?_, hsound.user, e, he, rfl⟩⟩
    obtain ⟨nonce, hmade⟩ := hsound.made
    rw [hmade, String.toList_ofList]
    exact parseApiKey_createApiKey hsound.fits nonce

/-- **When the server starts again**: when no name of a key looks like a number. It has all keys
then, with their last uses as of the last sync. -/
theorem startsAgain_iff {as : List BotKeyAction}
    (hrun : run (step ph f serverKey) start as = some s) :
    (s.restart.isSome = true ↔ ∀ uid kid botKey, (s.botKeys uid).get kid = some botKey →
      affinity.number botKey.name = none) ∧
    ∀ t, s.syncBotKeyLastUsed.restart = some t → ∀ uid kid,
      (t.botKeys uid).get kid = (s.botKeys uid).get kid := by
  have hinv := inv_of_run hrun
  refine ⟨hinv.restart_isSome_iff, fun t ht uid kid ↦ ?_⟩
  rw [hinv.did_sync.inv.get_restart ht]
  show ((s.botKeys uid).get kid).map _ = _
  cases hkey : (s.botKeys uid).get kid with
  | none => rfl
  | some botKey =>
    obtain ⟨row, hrow, -⟩ := (hinv.keys uid kid botKey hkey).stored
    rw [hinv.get_sync hkey hrow]
    rfl

/-- **When a key is made**: names are compared as the table has them. -/
theorem createBotApiKey_isOk_iff {as : List BotKeyAction}
    (hrun : run (step ph f serverKey) start as = some s) (token : CurrentUser) (uid : ℤ)
    (name nonce : String) (now : ℤ) :
    (∃ r, s.createBotApiKey f serverKey token uid name nonce now = .ok r) ↔
      token.isAdmin = true ∧ (s.accounts.users.get uid).isSome = true ∧
        ∀ kid botKey, (s.botKeys uid).get kid = some botKey →
          affinity.store botKey.name ≠ affinity.store name := by
  have hinv := inv_of_run hrun
  constructor
  · rintro ⟨r, hr⟩
    obtain ⟨htoken, huser, -, rows, hrows, -⟩ := createBotApiKey_eq_ok_iff.1 hr
    refine ⟨htoken, huser, fun kid botKey hkey heq ↦ ?_⟩
    obtain ⟨row, hrow, hstores⟩ := (hinv.keys uid kid botKey hkey).stored
    refine (IndexedTable.free_of_insert hrows).2 _ rfl
      (IndexedTable.taken_iff.2 ⟨kid, row, hrow, ?_⟩)
    rw [BotKeyRow.uidName, hstores.uid, hstores.name, heq]
  · rintro ⟨htoken, huser, hnames⟩
    have hfree : s.rows.Free s.nextKeyId ⟨uid, affinity.store name,
        affinity.store (String.ofList (f.createApiKey serverKey uid nonce)), now, none⟩ := by
      constructor
      · refine Option.eq_none_iff_forall_not_mem.2 fun row hrow ↦ ?_
        obtain ⟨botKey, hkey⟩ := Option.isSome_iff_exists.1 (hinv.rows _ row hrow)
        exact (hinv.keys _ _ botKey hkey).id.false
      · rintro i hi htaken
        obtain rfl := Option.some.inj hi
        obtain ⟨kid, row, hrow, hindex⟩ := IndexedTable.taken_iff.1 htaken
        obtain ⟨rfl, hname⟩ := Prod.mk.inj (Option.some.inj hindex)
        obtain ⟨botKey, hkey⟩ := Option.isSome_iff_exists.1 (hinv.rows kid row hrow)
        exact hnames kid botKey hkey ((hinv.stores hkey hrow).name.symm.trans hname)
    obtain ⟨rows, hrows⟩ := Option.isSome_iff_exists.1 (IndexedTable.insert_isSome_iff.2 hfree)
    refine ⟨_, createBotApiKey_eq_ok_iff.2 ⟨htoken, huser, ?_, rows, hrows, rfl⟩⟩
    rintro ⟨⟨kid, botKey⟩, he, rfl⟩
    exact hnames kid botKey (OrderedMap.get_eq_some.2 he) rfl

/-! ### A bot with two keys -/

/-- Texts of digits are numbers. -/
def digits : NumericAffinity where
  Number := ℕ
  decidableEq := inferInstance
  number s :=
    if s.toList.all Char.isDigit && !s.toList.isEmpty then
      some (s.toList.foldl (fun n c ↦ 10 * n + (c.toNat - 48)) 0)
    else none
  number_of_letter s hs := if_neg fun h ↦ by
    have hdigit := List.all_eq_true.1 (Bool.and_eq_true_iff.1 h).1 'b' hs
    cases hdigit

def admin : CurrentUser := ⟨1, "", true, false⟩

/-- A bot, and a key for it. -/
def oneKey : List BotKeyAction :=
  [.accounts (.createUser 10 0 "" { name := "b", isAdmin := true, createBy := .metaMask "0x" }),
    .create admin ⟨1, by decide, by decide⟩ "7" "n" 5, .sync]

theorem authenticate_iff_oneKey : ∃ s : BotKeySystem digits,
    run (step .transparent .sampleFormats "k") start oneKey = some s ∧
      ∃ t, s.authenticate .sampleFormats "k" (String.ofList
        (CredentialFormats.sampleFormats.createApiKey "k" 1 "n")) 6 = .ok (1, t) := by
  obtain ⟨s, hs, huser⟩ : ∃ s : BotKeySystem digits,
      run (step .transparent .sampleFormats "k") start oneKey = some s ∧
        (s.accounts.users.get 1).isSome = true := ⟨_, rfl, rfl⟩
  refine ⟨s, hs, (authenticate_iff hs _ 6 1).2 ⟨huser, 1, ?_⟩⟩
  refine ⟨oneKey.take 1, _, [.sync], _, _, rfl, rfl,
    ⟨admin, _, "7", "n", 5, _, rfl, rfl, rfl⟩, rfl, ?_⟩
  rw [← List.nil_append [BotKeyAction.sync], occurred_concat_iff rfl]
  rintro (hocc | ⟨_, ha, -⟩)
  · exact not_occurred_nil hocc
  · cases ha

theorem startsAgain_iff_oneKey : ∃ s : BotKeySystem digits,
    run (step .transparent .sampleFormats "k") start oneKey = some s ∧
      s.restart.isSome = false := by
  obtain ⟨s, hs, hname⟩ : ∃ s : BotKeySystem digits,
      run (step .transparent .sampleFormats "k") start oneKey = some s ∧
        ((s.botKeys 1).get 1).map BotKey.name = some "7" := ⟨_, rfl, rfl⟩
  obtain ⟨botKey, hkey, hname⟩ := Option.map_eq_some_iff.1 hname
  refine ⟨s, hs, Bool.eq_false_iff.2 fun hup ↦ ?_⟩
  have hnone := (startsAgain_iff hs).1.1 hup 1 1 botKey hkey
  rw [hname] at hnone
  cases hnone

theorem createBotApiKey_isOk_iff_oneKey : ∃ s : BotKeySystem digits,
    run (step .transparent .sampleFormats "k") start oneKey = some s ∧
      ¬∃ r, s.createBotApiKey .sampleFormats "k" admin 1 "007" "m" 8 = .ok r := by
  obtain ⟨s, hs, hname⟩ : ∃ s : BotKeySystem digits,
      run (step .transparent .sampleFormats "k") start oneKey = some s ∧
        ((s.botKeys 1).get 1).map BotKey.name = some "7" := ⟨_, rfl, rfl⟩
  obtain ⟨botKey, hkey, hname⟩ := Option.map_eq_some_iff.1 hname
  refine ⟨s, hs, fun hok ↦ ?_⟩
  refine ((createBotApiKey_isOk_iff hs admin 1 "007" "m" 8).1 hok).2.2 1 botKey hkey ?_
  rw [hname]
  rfl

end BotKeySystem

end VoceChat
