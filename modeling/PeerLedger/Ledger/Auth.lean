import PeerLedger.Formats.JsonWebToken
import PeerLedger.Ledger.Receivers

/-!
# Registration, login and the rotation of refresh tokens

The user row keeps the hash of the refresh token that was issued last.  A refresh token is a signed
JSON object whose first member is the id of the user, so that the tokens of a user agree on their
first 97 characters, and the hash depends on the first 72 bytes of its input.

The libraries are parameters (`Platform`), and what is known of the hash is `Platform.Lawful`.  A
token verifies if it was signed with the secret and has not expired: signatures are not forged.
-/

namespace PeerLedger

namespace Auth

open Formats

/-! ### Users -/

inductive Role where
  | user
  | admin
  deriving DecidableEq

/-- The text of the column `role`. -/
def Role.toText : Role → List Char
  | .user => "user".toList
  | .admin => "admin".toList

/-- A row of `users`; the database generates the id. -/
structure User where
  id : String
  email : String
  passwordHash : List Char
  refreshTokenHash : Option (List Char)
  role : Role
  isUuid : Ledger.isUuid id = true

/-- The table: ids and emails are unique. -/
structure UserTable where
  rows : List User
  ids : (rows.map User.id).Nodup
  emails : (rows.map User.email).Nodup

def UserTable.findByEmail (users : UserTable) (email : String) : Option User :=
  users.rows.find? fun user => user.email = email

def UserTable.findById (users : UserTable) (id : String) : Option User :=
  users.rows.find? fun user => user.id = id

lemma UserTable.nodup_cons {α : Type} {f : User → α} {rows : List User} {user : User}
    (hfresh : f user ∉ rows.map f) (h : (rows.map f).Nodup) : ((user :: rows).map f).Nodup := by
  rw [List.map_cons, List.nodup_cons]
  exact ⟨hfresh, h⟩

/-- `save` of a new user; `none` is a violation of a unique constraint. -/
def UserTable.insert (users : UserTable) (user : User) : Option UserTable :=
  if h : user.id ∉ users.rows.map User.id ∧ user.email ∉ users.rows.map User.email then
    some { rows := user :: users.rows
           ids := UserTable.nodup_cons h.1 users.ids
           emails := UserTable.nodup_cons h.2 users.emails }
  else none

/-- The user with another hash in the row with this id. -/
def User.withHash (id : String) (digest : List Char) (user : User) : User :=
  if user.id = id then { user with refreshTokenHash := some digest } else user

lemma User.withHash_id (id : String) (digest : List Char) (user : User) :
    (user.withHash id digest).id = user.id := by
  unfold User.withHash
  split <;> rfl

lemma User.withHash_email (id : String) (digest : List Char) (user : User) :
    (user.withHash id digest).email = user.email := by
  unfold User.withHash
  split <;> rfl

lemma UserTable.nodup_withHash {α : Type} {f : User → α} {id : String} {digest : List Char}
    (hf : ∀ user, f (User.withHash id digest user) = f user) {rows : List User}
    (h : (rows.map f).Nodup) : ((rows.map (User.withHash id digest)).map f).Nodup := by
  have heq : f ∘ User.withHash id digest = f := funext hf
  rw [List.map_map, heq]
  exact h

/-- `save` of a user whose hash has changed. -/
def UserTable.saveHash (users : UserTable) (id : String) (digest : List Char) : UserTable where
  rows := users.rows.map (User.withHash id digest)
  ids := UserTable.nodup_withHash (User.withHash_id id digest) users.ids
  emails := UserTable.nodup_withHash (User.withHash_email id digest) users.emails

/-! ### The service -/

inductive HttpError where
  | conflict (message : String)
  | unauthorized (message : String)
  | serviceUnavailable (message : String)
  | duplicateKey
  deriving DecidableEq

/-- The names of the secrets in the environment. -/
inductive SecretName where
  | JWT_ACCESS_SECRET
  | JWT_REFRESH_SECRET

def SecretName.toText : SecretName → String
  | .JWT_ACCESS_SECRET => "JWT_ACCESS_SECRET"
  | .JWT_REFRESH_SECRET => "JWT_REFRESH_SECRET"

/-- The libraries and the environment.  `hash` and `compare` are those of bcrypt, `mac` is the code of
a text under a secret; the lifetimes are in seconds. -/
structure Platform where
  hash : (salt text : List Char) → List Char
  compare : (text digest : List Char) → Bool
  mac : (secret text : List Char) → List Char
  env : SecretName → Option (List Char)
  accessLifetime : ℕ
  refreshLifetime : ℕ

/-- The input of bcrypt: the first 72 bytes. -/
def hashed (text : List Char) : List UInt8 := (Utf8.encode text).take 72

/-- What is known of bcrypt. -/
structure Platform.Lawful (p : Platform) : Prop where
  hash_eq : ∀ {text text'}, hashed text = hashed text' → ∀ salt, p.hash salt text = p.hash salt text'
  compare_hash : ∀ text salt, p.compare text (p.hash salt text) = true
  hash_ne_nil : ∀ text salt, p.hash salt text ≠ []

/-- A text that the service has signed. -/
structure Signed where
  text : List Char
  secret : List Char
  sub : String
  exp : ℕ

/-- The table, the texts signed so far, and for each refresh token that was issued the user and the
token, the latest first. -/
structure World where
  users : UserTable
  signed : List Signed
  issued : List (String × List Char)

/-- What the environment decides during a request: the id of a new row, the salts, and the seconds
at which the clock is read. -/
structure Draws where
  id : String
  isUuid : Ledger.isUuid id = true
  passwordSalt : List Char
  refreshSalt : List Char
  verifiedAt : ℕ
  accessSignedAt : ℕ
  refreshSignedAt : ℕ

structure TokenPair where
  accessToken : List Char
  refreshToken : List Char
  deriving DecidableEq

def Platform.secret (p : Platform) (name : SecretName) : Except HttpError (List Char) :=
  match p.env name with
  | some (c :: value) => .ok (c :: value)
  | _ => .error (.serviceUnavailable (name.toText ++ " is not configured"))

/-- The payload of a token, with the members that the library adds. -/
def payload (user : User) (iat exp : ℕ) : JsonText.Value :=
  .object [("sub".toList, .string user.id.toList), ("email".toList, .string user.email.toList),
    ("role".toList, .string user.role.toText), ("iat".toList, .number (toString iat).toList),
    ("exp".toList, .number (toString exp).toList)]

/-- `jwt.sign` at a second. -/
def Platform.sign (p : Platform) (secret : List Char) (user : User) (iat lifetime : ℕ) : Signed where
  text := JsonWebToken.sign p.mac secret (payload user iat (iat + lifetime))
  secret := secret
  sub := user.id
  exp := iat + lifetime

/-- `jwt.verify` at a second: the subject of a token. -/
def World.verify (w : World) (secret : List Char) (now : ℕ) (token : List Char) : Option String :=
  (w.signed.find? fun s => s.text = token ∧ s.secret = secret ∧ now < s.exp).map Signed.sub

def issueTokens (p : Platform) (d : Draws) (user : User) (w : World) :
    World × Except HttpError TokenPair :=
  match p.secret .JWT_ACCESS_SECRET with
  | .error e => (w, .error e)
  | .ok accessSecret =>
    match p.secret .JWT_REFRESH_SECRET with
    | .error e => (w, .error e)
    | .ok refreshSecret =>
      let accessToken := p.sign accessSecret user d.accessSignedAt p.accessLifetime
      let refreshToken := p.sign refreshSecret user d.refreshSignedAt p.refreshLifetime
      ({ users := w.users.saveHash user.id (p.hash d.refreshSalt refreshToken.text)
         signed := refreshToken :: accessToken :: w.signed
         issued := (user.id, refreshToken.text) :: w.issued },
        .ok { accessToken := accessToken.text, refreshToken := refreshToken.text })

structure Credentials where
  email : String
  password : List Char

def register (p : Platform) (d : Draws) (dto : Credentials) (w : World) :
    World × Except HttpError TokenPair :=
  match w.users.findByEmail dto.email with
  | some _ => (w, .error (.conflict "Email вже зареєстровано"))
  | none =>
    let user : User := { id := d.id
                         email := dto.email
                         passwordHash := p.hash d.passwordSalt dto.password
                         refreshTokenHash := none
                         role := .user
                         isUuid := d.isUuid }
    match w.users.insert user with
    | none => (w, .error .duplicateKey)
    | some users => issueTokens p d user { w with users }

def login (p : Platform) (d : Draws) (dto : Credentials) (w : World) :
    World × Except HttpError TokenPair :=
  match w.users.findByEmail dto.email with
  | none => (w, .error (.unauthorized "Невірний email або пароль"))
  | some user =>
    if p.compare dto.password user.passwordHash then issueTokens p d user w
    else (w, .error (.unauthorized "Невірний email або пароль"))

/-- The subject of a refresh token that verifies. -/
def World.subject (w : World) (p : Platform) (now : ℕ) (token : List Char) : Option String :=
  match p.secret .JWT_REFRESH_SECRET with
  | .error _ => none
  | .ok secret => w.verify secret now token

def refresh (p : Platform) (d : Draws) (token : List Char) (w : World) :
    World × Except HttpError TokenPair :=
  match w.subject p d.verifiedAt token with
  | none => (w, .error (.unauthorized "Невалідний refresh token"))
  | some sub =>
    match w.users.findById sub with
    | none => (w, .error (.unauthorized "Refresh token відкликано"))
    | some user =>
      match user.refreshTokenHash with
      | none | some [] => (w, .error (.unauthorized "Refresh token відкликано"))
      | some digest =>
        if p.compare token digest then issueTokens p d user w
        else (w, .error (.unauthorized "Refresh token відкликано"))

/-! ### Runs -/

inductive Operation where
  | register (dto : Credentials)
  | login (dto : Credentials)
  | refresh (token : List Char)

def Operation.perform (p : Platform) (d : Draws) :
    Operation → World → World × Except HttpError TokenPair
  | .register dto => Auth.register p d dto
  | .login dto => Auth.login p d dto
  | .refresh token => Auth.refresh p d token

/-- No user is registered. -/
def World.initial : World where
  users := { rows := [], ids := List.nodup_nil, emails := List.nodup_nil }
  signed := []
  issued := []

/-- The state after some operations. -/
def run (p : Platform) (operations : List (Draws × Operation)) : World :=
  operations.foldl (fun w operation => (operation.2.perform p operation.1 w).1) .initial

/-- The refresh token that was issued to a user last. -/
def World.latest (w : World) (userId : String) : Option (List Char) :=
  (w.issued.find? fun issue => issue.1 = userId).map Prod.snd


/-! ### Ids -/

/-- The characters of a user's id. -/
def isIdChar (c : Char) : Bool := c.toNat < 128 && JsonText.escape c = [c]

lemma isIdChar_ofNat : ∀ n < 128, Ledger.isHex (Char.ofNat n) = true ∨
    (Char.ofNat n).toLower ∈ ['8', '9', 'a', 'b'] ∨ Char.ofNat n = '-' →
    isIdChar (Char.ofNat n) = true := by decide +kernel

/-- No other character has a lower case below 128. -/
lemma toNat_lt_of_toLower {c : Char} (h : c.toLower.toNat < 128) : c.toNat < 128 := by
  by_contra hlarge
  have hlower : c.toLower = c := by
    unfold Char.toLower
    refine dif_neg fun hupper => hlarge ?_
    have hz : c.toNat ≤ 'Z'.toNat := hupper.2
    exact lt_of_le_of_lt hz (by decide)
  rw [hlower] at h
  exact hlarge h

/-- A hexadecimal digit is below 128. -/
lemma toNat_lt_of_isHex {c : Char} (h : Ledger.isHex c = true) : c.toNat < 128 := by
  unfold Ledger.isHex at h
  rw [Bool.or_eq_true, decide_eq_true_eq] at h
  obtain hdigit | hletter := h
  · have hnine : c.toNat ≤ '9'.toNat := by
      unfold Char.isDigit at hdigit
      simp only [ge_iff_le, Bool.and_eq_true, decide_eq_true_eq] at hdigit
      exact hdigit.2
    exact lt_of_le_of_lt hnine (by decide)
  · have hall : ['a', 'b', 'c', 'd', 'e', 'f'].all (fun d => d.toNat < 128) = true := by decide
    exact toNat_lt_of_toLower (of_decide_eq_true (List.all_eq_true.mp hall _ hletter))

lemma isIdChar_of {c : Char}
    (h : Ledger.isHex c = true ∨ c.toLower ∈ ['8', '9', 'a', 'b'] ∨ c = '-') :
    isIdChar c = true := by
  have hsmall : c.toNat < 128 := by
    obtain hhex | hvariant | rfl := h
    · exact toNat_lt_of_isHex hhex
    · have hall : ['8', '9', 'a', 'b'].all (fun d => d.toNat < 128) = true := by decide
      exact toNat_lt_of_toLower (of_decide_eq_true (List.all_eq_true.mp hall _ hvariant))
    · decide
  rw [← Char.ofNat_toNat c] at h ⊢
  exact isIdChar_ofNat _ hsmall h

lemma length_of_isUuid {id : String} (h : Ledger.isUuid id = true) : id.toList.length = 36 := by
  unfold Ledger.isUuid at h
  simp only [Bool.decide_and, Bool.and_eq_true, decide_eq_true_eq] at h
  exact h.1

/-- An id is hexadecimal digits and hyphens. -/
lemma isIdChar_of_isUuid {id : String} (h : Ledger.isUuid id = true) :
    ∀ c ∈ id.toList, isIdChar c = true := by
  intro c hc
  unfold Ledger.isUuid at h
  simp only [Bool.decide_and, Bool.and_eq_true, decide_eq_true_eq, List.all_eq_true] at h
  obtain ⟨index, hindex, rfl⟩ := List.getElem_of_mem hc
  have hchar := h.2 (id.toList[index], index) (List.mem_zipIdx_iff_getElem?.mpr (by simp [hindex]))
  dsimp only at hchar
  refine isIdChar_of ?_
  split_ifs at hchar
  · exact .inr (.inr (of_decide_eq_true hchar))
  · have hall : ['1', '2', '3', '4', '5'].all Ledger.isHex = true := by decide
    exact .inl (List.all_eq_true.mp hall _ (of_decide_eq_true hchar))
  · exact .inr (.inl (of_decide_eq_true hchar))
  · exact .inl hchar

/-- The written form of a payload up to the id of the user is 45 bytes long. -/
lemma length_firstMember {id : String} (h : Ledger.isUuid id = true) :
    (Utf8.encode (JsonWebToken.firstMember "sub".toList id.toList)).length = 45 := by
  have hchars := isIdChar_of_isUuid h
  have hquote : JsonText.quote id.toList = JsonText.quoteMark :: (id.toList ++ [JsonText.quoteMark]) := by
    have hescape : id.toList.flatMap JsonText.escape = id.toList.flatMap fun c => [c] := by
      refine List.flatMap_congr fun c hc => ?_
      have hc' := hchars c hc
      unfold isIdChar at hc'
      rw [Bool.and_eq_true, decide_eq_true_eq, decide_eq_true_eq] at hc'
      exact hc'.2
    rw [JsonText.quote, hescape, List.flatMap_singleton']
  have hmember : JsonWebToken.firstMember "sub".toList id.toList =
      (Char.ofNat 0x7B :: (JsonText.quote "sub".toList ++ [':', JsonText.quoteMark])) ++
        (id.toList ++ [JsonText.quoteMark]) := by
    rw [JsonWebToken.firstMember, hquote]
    simp
  have hopen : (Utf8.encode (Char.ofNat 0x7B ::
      (JsonText.quote "sub".toList ++ [':', JsonText.quoteMark]))).length = 8 := by decide +kernel
  have hclose : (Utf8.encode [JsonText.quoteMark]).length = 1 := by decide +kernel
  have hid : (Utf8.encode id.toList).length = 36 := by
    rw [Utf8.length_encode_ascii fun c hc => ?_, length_of_isUuid h]
    have hc' := hchars c hc
    unfold isIdChar at hc'
    rw [Bool.and_eq_true, decide_eq_true_eq] at hc'
    exact hc'.1
  rw [hmember, Utf8.encode_append, Utf8.encode_append, List.length_append, List.length_append, hopen,
    hclose, hid]

/-! ### The tokens of a user -/

/-- The token opens as those of the user do. -/
def IsTokenOf (id : String) (token : List Char) : Prop :=
  ∃ rest, token = JsonWebToken.opening "sub".toList id.toList ++ rest

lemma length_opening {id : String} (h : Ledger.isUuid id = true) :
    (JsonWebToken.opening "sub".toList id.toList).length = 97 := by
  have haligned := length_firstMember h
  rw [JsonWebToken.length_opening (by rw [haligned]), haligned]

/-- What is signed for a user opens as the tokens of the user do. -/
lemma isTokenOf_sign (p : Platform) (secret : List Char) (user : User) (iat lifetime : ℕ) :
    IsTokenOf user.id (p.sign secret user iat lifetime).text :=
  JsonWebToken.sign_eq_opening _ _ _ _ _ (by rw [length_firstMember user.isUuid])

/-- The hash does not tell two tokens of a user apart. -/
lemma hashed_eq {id : String} (h : Ledger.isUuid id = true) {token token' : List Char}
    (htoken : IsTokenOf id token) (htoken' : IsTokenOf id token') :
    hashed token = hashed token' := by
  have hlong : 72 ≤ (Utf8.encode (JsonWebToken.opening "sub".toList id.toList)).length := by
    have hlength := Utf8.length_le_encode (JsonWebToken.opening "sub".toList id.toList)
    rw [length_opening h] at hlength
    omega
  have hstart : ∀ rest, hashed (JsonWebToken.opening "sub".toList id.toList ++ rest) =
      (Utf8.encode (JsonWebToken.opening "sub".toList id.toList)).take 72 := by
    intro rest
    rw [hashed, Utf8.encode_append, List.take_append_of_le_length hlong]
  obtain ⟨rest, rfl⟩ := htoken
  obtain ⟨rest', rfl⟩ := htoken'
  rw [hstart, hstart]

/-- A token determines the user. -/
lemma id_eq_of_isTokenOf {id id' : String} (h : Ledger.isUuid id = true)
    (h' : Ledger.isUuid id' = true) {token : List Char} (htoken : IsTokenOf id token)
    (htoken' : IsTokenOf id' token) : id = id' := by
  obtain ⟨rest, rfl⟩ := htoken
  obtain ⟨rest', heq⟩ := htoken'
  have hlength : (JsonWebToken.opening "sub".toList id.toList).length =
      (JsonWebToken.opening "sub".toList id'.toList).length := by
    rw [length_opening h, length_opening h']
  exact String.toList_inj.mp (JsonWebToken.opening_inj (List.append_inj_left heq hlength))


/-! ### The table -/

/-- The row of a user is found by its id. -/
lemma UserTable.findById_of_mem (users : UserTable) {user : User} (h : user ∈ users.rows) :
    users.findById user.id = some user := by
  unfold UserTable.findById
  obtain ⟨found, hfound⟩ : ∃ found, users.rows.find? (fun u => u.id = user.id) = some found :=
    Option.isSome_iff_exists.mp (List.find?_isSome.mpr ⟨user, h, by simp⟩)
  have hid : found.id = user.id := by simpa using List.find?_some hfound
  have hsame := List.inj_on_of_nodup_map users.ids (List.mem_of_find?_eq_some hfound) h hid
  rw [hfound, hsame]

lemma UserTable.findById_findByEmail {users : UserTable} {email : String} {user : User}
    (h : users.findByEmail email = some user) : users.findById user.id = some user :=
  users.findById_of_mem (List.mem_of_find?_eq_some h)

lemma UserTable.id_of_findById {users : UserTable} {id : String} {user : User}
    (h : users.findById id = some user) : user.id = id := by
  simpa using List.find?_some h

/-- A row that is found is found after an insertion. -/
lemma UserTable.findById_insert {users users' : UserTable} {user other : User} {id : String}
    (hinsert : users.insert user = some users') (h : users.findById id = some other) :
    users'.findById id = some other := by
  unfold UserTable.insert at hinsert
  split at hinsert
  · next hfresh =>
    obtain rfl := Option.some.inj hinsert
    have hmem : other.id ∈ users.rows.map User.id :=
      List.mem_map_of_mem (List.mem_of_find?_eq_some h)
    have hid := UserTable.id_of_findById h
    have hne : ¬ user.id = id := by
      rintro rfl
      exact hfresh.1 (hid ▸ hmem)
    unfold UserTable.findById at h ⊢
    rw [List.find?_cons_of_neg (by simpa using hne)]
    exact h
  · cases hinsert

/-- The new row is found. -/
lemma UserTable.findById_inserted {users users' : UserTable} {user : User}
    (hinsert : users.insert user = some users') : users'.findById user.id = some user := by
  unfold UserTable.insert at hinsert
  split at hinsert
  · obtain rfl := Option.some.inj hinsert
    exact UserTable.findById_of_mem _ List.mem_cons_self
  · cases hinsert

lemma UserTable.findById_saveHash (users : UserTable) (id id' : String) (digest : List Char) :
    (users.saveHash id digest).findById id' =
      (users.findById id').map (User.withHash id digest) := by
  unfold UserTable.findById UserTable.saveHash
  rw [List.find?_map]
  congr 2
  funext user
  simp only [Function.comp_apply, User.withHash_id]

/-! ### What holds in every state -/

/-- Every text that was signed opens as the tokens of a user, whose row keeps the hash of such a
token. -/
structure World.Inv (p : Platform) (w : World) : Prop where
  tokens : ∀ s ∈ w.signed, IsTokenOf s.sub s.text
  hashes : ∀ s ∈ w.signed, ∃ user salt text, w.users.findById s.sub = some user ∧
    user.refreshTokenHash = some (p.hash salt text) ∧ IsTokenOf s.sub text
  secrets : ∀ s ∈ w.signed, ∃ accessSecret refreshSecret,
    p.secret .JWT_ACCESS_SECRET = .ok accessSecret ∧ p.secret .JWT_REFRESH_SECRET = .ok refreshSecret
  issued : ∀ issue ∈ w.issued, ∃ s ∈ w.signed, s.sub = issue.1 ∧ s.text = issue.2

variable {p : Platform} {d : Draws} {w : World}

/-- What `issueTokens` does with both secrets configured. -/
lemma issueTokens_eq {accessSecret refreshSecret : List Char}
    (haccess : p.secret .JWT_ACCESS_SECRET = .ok accessSecret)
    (hrefresh : p.secret .JWT_REFRESH_SECRET = .ok refreshSecret) (user : User) :
    issueTokens p d user w =
      ({ users := w.users.saveHash user.id (p.hash d.refreshSalt
          (p.sign refreshSecret user d.refreshSignedAt p.refreshLifetime).text)
         signed := p.sign refreshSecret user d.refreshSignedAt p.refreshLifetime ::
          p.sign accessSecret user d.accessSignedAt p.accessLifetime :: w.signed
         issued := (user.id,
          (p.sign refreshSecret user d.refreshSignedAt p.refreshLifetime).text) :: w.issued },
        .ok { accessToken := (p.sign accessSecret user d.accessSignedAt p.accessLifetime).text
              refreshToken :=
                (p.sign refreshSecret user d.refreshSignedAt p.refreshLifetime).text }) := by
  unfold issueTokens
  rw [haccess, hrefresh]

/-- Tokens for a user of the table keep the invariant. -/
lemma issueTokens_inv (hinv : w.Inv p) {user : User}
    (hfound : w.users.findById user.id = some user) : (issueTokens p d user w).1.Inv p := by
  cases haccess : p.secret .JWT_ACCESS_SECRET with
  | error e =>
    unfold issueTokens
    rw [haccess]
    exact hinv
  | ok accessSecret =>
    cases hrefresh : p.secret .JWT_REFRESH_SECRET with
    | error e =>
      unfold issueTokens
      rw [haccess, hrefresh]
      exact hinv
    | ok refreshSecret =>
      rw [issueTokens_eq haccess hrefresh]
      have htoken := isTokenOf_sign p refreshSecret user d.refreshSignedAt p.refreshLifetime
      have haccessToken := isTokenOf_sign p accessSecret user d.accessSignedAt p.accessLifetime
      have hown : ∃ u salt text, (w.users.saveHash user.id (p.hash d.refreshSalt
          (p.sign refreshSecret user d.refreshSignedAt p.refreshLifetime).text)).findById user.id =
            some u ∧ u.refreshTokenHash = some (p.hash salt text) ∧ IsTokenOf user.id text := by
        rw [UserTable.findById_saveHash, hfound, Option.map_some]
        exact ⟨_, _, _, rfl, by rw [User.withHash, if_pos rfl], htoken⟩
      constructor
      · intro s hs
        obtain rfl | rfl | hs := by simpa only [List.mem_cons] using hs
        · exact htoken
        · exact haccessToken
        · exact hinv.tokens s hs
      · intro s hs
        obtain rfl | rfl | hs := by simpa only [List.mem_cons] using hs
        · exact hown
        · exact hown
        · obtain ⟨other, salt, text, hother, hhash, htext⟩ := hinv.hashes s hs
          by_cases hid : other.id = user.id
          · have hsub : s.sub = user.id := (UserTable.id_of_findById hother).symm.trans hid
            rw [hsub]
            exact hown
          · refine ⟨other, salt, text, ?_, hhash, htext⟩
            rw [UserTable.findById_saveHash, hother, Option.map_some, User.withHash, if_neg hid]
      · intro s _
        exact ⟨accessSecret, refreshSecret, haccess, hrefresh⟩
      · intro issue hissue
        obtain rfl | hissue := List.mem_cons.mp hissue
        · exact ⟨_, List.mem_cons_self, rfl, rfl⟩
        · obtain ⟨s, hs, hsub, htext⟩ := hinv.issued issue hissue
          exact ⟨s, List.mem_cons_of_mem _ (List.mem_cons_of_mem _ hs), hsub, htext⟩

/-- An insertion keeps the invariant. -/
lemma insert_inv (hinv : w.Inv p) {user : User} {users : UserTable}
    (hinsert : w.users.insert user = some users) : ({ w with users } : World).Inv p where
  tokens := hinv.tokens
  hashes s hs := by
    obtain ⟨other, salt, text, hother, hhash, htext⟩ := hinv.hashes s hs
    exact ⟨other, salt, text, UserTable.findById_insert hinsert hother, hhash, htext⟩
  secrets := hinv.secrets
  issued := hinv.issued

lemma register_inv (hinv : w.Inv p) (dto : Credentials) : (register p d dto w).1.Inv p := by
  unfold register
  split
  · exact hinv
  · dsimp only
    split
    · exact hinv
    · next users hinsert =>
      exact issueTokens_inv (insert_inv hinv hinsert) (UserTable.findById_inserted hinsert)

lemma login_inv (hinv : w.Inv p) (dto : Credentials) : (login p d dto w).1.Inv p := by
  unfold login
  split
  · exact hinv
  · next user hfound =>
    split
    · exact issueTokens_inv hinv (UserTable.findById_findByEmail hfound)
    · exact hinv

lemma refresh_inv (hinv : w.Inv p) (token : List Char) : (refresh p d token w).1.Inv p := by
  unfold refresh
  split
  · exact hinv
  · split
    · exact hinv
    · next user hfound =>
      have hid := UserTable.id_of_findById hfound
      split
      · exact hinv
      · exact hinv
      · split
        · exact issueTokens_inv hinv (hid.symm ▸ hfound)
        · exact hinv

/-- The invariant holds after every run. -/
theorem run_inv (p : Platform) (operations : List (Draws × Operation)) : (run p operations).Inv p := by
  have hstep : ∀ (operation : Draws × Operation) (w : World), w.Inv p →
      (operation.2.perform p operation.1 w).1.Inv p := by
    intro operation w hinv
    obtain ⟨d, dto | dto | token⟩ := operation
    · exact register_inv hinv dto
    · exact login_inv hinv dto
    · exact refresh_inv hinv token
  have hinitial : World.initial.Inv p := by
    constructor <;> intro x hx <;> cases hx
  unfold run
  induction operations using List.reverseRecOn with
  | nil => exact hinitial
  | append_singleton operations operation ih =>
    rw [List.foldl_append]
    exact hstep operation _ ih

/-! ### Refreshing -/

/-- A token that verifies was signed for its subject with the secret of the refresh tokens. -/
lemma mem_signed_of_subject {now : ℕ} {token : List Char} {sub : String}
    (h : w.subject p now token = some sub) :
    ∃ s ∈ w.signed, s.sub = sub ∧ s.text = token ∧ p.secret .JWT_REFRESH_SECRET = .ok s.secret := by
  unfold World.subject at h
  split at h
  · cases h
  · next secret hsecret =>
    obtain ⟨s, hs, hsub⟩ := Option.map_eq_some_iff.mp h
    have hmatch := List.find?_some hs
    simp only [decide_eq_true_eq] at hmatch
    exact ⟨s, List.mem_of_find?_eq_some hs, hsub, hmatch.1, hmatch.2.1 ▸ hsecret⟩

/-- Every token that verifies is refreshed. -/
theorem refresh_of_subject (hp : p.Lawful) (hinv : w.Inv p) {token : List Char} {sub : String}
    (h : w.subject p d.verifiedAt token = some sub) :
    ∃ pair, (refresh p d token w).2 = .ok pair := by
  obtain ⟨s, hs, rfl, rfl, _⟩ := mem_signed_of_subject h
  obtain ⟨user, salt, text, hfound, hhash, htext⟩ := hinv.hashes s hs
  obtain ⟨accessSecret, refreshSecret, haccess, hrefresh⟩ := hinv.secrets s hs
  have huuid : Ledger.isUuid s.sub = true := UserTable.id_of_findById hfound ▸ user.isUuid
  have hcompare : p.compare s.text (p.hash salt text) = true := by
    rw [← hp.hash_eq (hashed_eq huuid (hinv.tokens s hs) htext) salt]
    exact hp.compare_hash s.text salt
  unfold refresh
  rw [h]
  simp only [hfound, hhash]
  split
  · next hnone => cases hnone
  · next hempty => exact absurd (Option.some.inj hempty) (hp.hash_ne_nil text salt)
  · next digest _ hdigest =>
    obtain rfl := Option.some.inj hdigest
    rw [if_pos hcompare, issueTokens_eq haccess hrefresh]
    exact ⟨_, rfl⟩

/-- A token that does not verify is rejected. -/
lemma refresh_of_subject_eq_none {token : List Char} (h : w.subject p d.verifiedAt token = none) :
    (refresh p d token w).2 = .error (.unauthorized "Невалідний refresh token") := by
  unfold refresh
  rw [h]

/-- A refresh token that was issued to a user verifies for no other user. -/
lemma sub_eq_of_issued (hinv : w.Inv p) {userId sub : String} {token : List Char} {now : ℕ}
    (hissued : (userId, token) ∈ w.issued) (h : w.subject p now token = some sub) :
    sub = userId := by
  obtain ⟨s, hs, rfl, htext, _⟩ := mem_signed_of_subject h
  obtain ⟨s', hs', rfl, htext'⟩ := hinv.issued _ hissued
  obtain ⟨user, _, _, hfound, _⟩ := hinv.hashes s hs
  obtain ⟨user', _, _, hfound', _⟩ := hinv.hashes s' hs'
  have huuid : Ledger.isUuid s.sub = true := UserTable.id_of_findById hfound ▸ user.isUuid
  have huuid' : Ledger.isUuid s'.sub = true := UserTable.id_of_findById hfound' ▸ user'.isUuid
  have htoken := hinv.tokens s hs
  have htoken' := hinv.tokens s' hs'
  rw [htext] at htoken
  rw [htext'] at htoken'
  exact id_eq_of_isTokenOf huuid huuid' htoken htoken'

/-- A refresh of a user succeeds with the latest token only, and the earlier ones are revoked; one
that has expired is invalid. -/
structure Rotates (p : Platform) (d : Draws) (w : World) (userId : String) : Prop where
  only_latest : ∀ token pair, w.subject p d.verifiedAt token = some userId →
    (refresh p d token w).2 = .ok pair → w.latest userId = some token
  earlier_revoked : ∀ token, (userId, token) ∈ w.issued → w.latest userId ≠ some token →
    (refresh p d token w).2 = .error (.unauthorized "Refresh token відкликано") ∨
      w.subject p d.verifiedAt token = none ∧
        (refresh p d token w).2 = .error (.unauthorized "Невалідний refresh token")

/-- After every run, the refresh tokens of a user rotate if and only if no other token than the latest
one verifies for the user. -/
theorem refresh_tokens_rotate (p : Platform) (hp : p.Lawful) (operations : List (Draws × Operation))
    (d : Draws) (userId : String) :
    Rotates p d (run p operations) userId ↔
      ∀ token, (run p operations).subject p d.verifiedAt token = some userId →
        (run p operations).latest userId = some token := by
  have hinv := run_inv p operations
  constructor
  · intro hrotates token hsubject
    obtain ⟨pair, hpair⟩ := refresh_of_subject hp hinv hsubject
    exact hrotates.only_latest token pair hsubject hpair
  · intro honly
    refine ⟨fun token _ hsubject _ => honly token hsubject, fun token hissued hearlier => ?_⟩
    have hnone : (run p operations).subject p d.verifiedAt token = none := by
      by_contra hsome
      obtain ⟨sub, hsub⟩ := Option.ne_none_iff_exists'.mp hsome
      obtain rfl := sub_eq_of_issued hinv hissued hsub
      exact hearlier (honly token hsub)
    exact .inr ⟨hnone, refresh_of_subject_eq_none hnone⟩

/-! ### Ann logs in twice -/

/-- A platform whose hashes are made of the first 72 bytes and the salt. -/
def plain : Platform where
  hash salt text := Base64Url.encode (hashed text) ++ '$' :: salt
  compare text digest := (Base64Url.encode (hashed text) ++ ['$']).isPrefixOf digest
  mac secret text := JsonWebToken.segment (secret ++ text)
  env
    | .JWT_ACCESS_SECRET => some "access".toList
    | .JWT_REFRESH_SECRET => some "refresh".toList
  accessLifetime := 900
  refreshLifetime := 604800

lemma plain_lawful : plain.Lawful where
  hash_eq h salt := congrArg (fun bytes => Base64Url.encode bytes ++ '$' :: salt) h
  compare_hash text salt := by
    refine List.isPrefixOf_iff_prefix.mpr ⟨salt, ?_⟩
    rw [List.append_assoc]
    rfl
  hash_ne_nil text salt := List.append_ne_nil_of_right_ne_nil _ (List.cons_ne_nil _ _)

def annsId : String := "00000000-0000-4000-8000-000000000001"

lemma isUuid_annsId : Ledger.isUuid annsId = true := by decide +kernel

/-- A request within one second. -/
def drawsAt (second : ℕ) : Draws where
  id := annsId
  isUuid := isUuid_annsId
  passwordSalt := []
  refreshSalt := []
  verifiedAt := second
  accessSignedAt := second
  refreshSignedAt := second

def ann : Credentials := ⟨"ann@example.com", "password".toList⟩

/-- Ann registers in the first second and logs in a second later. -/
def twoLogins : List (Draws × Operation) :=
  [(drawsAt 0, .register ann), (drawsAt 1, .login ann)]

/-- The row of Ann, as it is signed. -/
def annsRow : User where
  id := annsId
  email := "ann@example.com"
  passwordHash := []
  refreshTokenHash := none
  role := .user
  isUuid := isUuid_annsId

/-- The refresh token of a second. -/
def annsToken (second : ℕ) : List Char :=
  (plain.sign "refresh".toList annsRow second 604800).text

lemma issued_twoLogins : (run plain twoLogins).issued =
    [(annsId, annsToken 1), (annsId, annsToken 0)] := by decide +kernel

lemma latest_twoLogins : (run plain twoLogins).latest annsId = some (annsToken 1) := by
  rw [World.latest, issued_twoLogins, List.find?_cons_of_pos (by simp)]
  rfl

lemma subject_twoLogins : (run plain twoLogins).subject plain 2 (annsToken 0) = some annsId := by
  decide +kernel

lemma annsToken_ne : annsToken 0 ≠ annsToken 1 := by decide +kernel

/-- The token of Ann's registration is refreshed after her login. -/
theorem earlier_token_refreshed :
    (annsId, annsToken 0) ∈ (run plain twoLogins).issued ∧
      (run plain twoLogins).latest annsId = some (annsToken 1) ∧ annsToken 0 ≠ annsToken 1 ∧
      ¬ Rotates plain (drawsAt 2) (run plain twoLogins) annsId := by
  refine ⟨?_, latest_twoLogins, annsToken_ne, fun hrotates => ?_⟩
  · rw [issued_twoLogins]
    exact List.mem_cons_of_mem _ List.mem_cons_self
  · obtain ⟨pair, hpair⟩ :=
      refresh_of_subject plain_lawful (run_inv plain twoLogins) (d := drawsAt 2) subject_twoLogins
    have hlatest := hrotates.only_latest (annsToken 0) pair subject_twoLogins hpair
    rw [latest_twoLogins] at hlatest
    exact annsToken_ne (Option.some.inj hlatest).symm

lemma signed_registered :
    ∀ s ∈ (run plain [(drawsAt 0, .register ann)]).signed, s.secret = "refresh".toList →
      (run plain [(drawsAt 0, .register ann)]).latest annsId = some s.text := by decide +kernel

/-- The refresh tokens of Ann rotate after her registration. -/
theorem refresh_tokens_rotate_registered :
    Rotates plain (drawsAt 1) (run plain [(drawsAt 0, .register ann)]) annsId := by
  refine (refresh_tokens_rotate plain plain_lawful _ _ _).mpr fun token hsubject => ?_
  obtain ⟨s, hs, _, rfl, hsecret⟩ := mem_signed_of_subject hsubject
  exact signed_registered s hs (Except.ok.inj hsecret).symm

end Auth

end PeerLedger
