import PeerLedger.Formats.PercentEncoding
import PeerLedger.Ledger.Auth
import Mathlib.Data.List.DropRight

/-!
# Who reads the activity

The HTTP requests and the sockets of the notifications service present an access token that the auth
service has signed, in the header `Authorization`; a socket may present it in the cookie
`accessToken` instead.  The services share the secret of the access tokens.

An access token is accepted until it expires, for the user to whom it was issued
(`issued_token_accepted`).
-/

namespace PeerLedger

namespace Notifications

open Formats

/-! ### Headers -/

/-- The characters that `.` does not match. -/
def isLineTerminator (c : Char) : Bool := c.toNat ∈ [0x0A, 0x0D, 0x2028, 0x2029]

/-- The group of `/^Bearer\s+(.+)$/i`. -/
def bearerToken (header : List Char) : Option (List Char) :=
  let rest := header.drop 6
  let spaces := rest.takeWhile Ledger.isWhiteSpace
  let text := rest.dropWhile Ledger.isWhiteSpace
  -- when nothing follows the white space, `\s+` gives its last character back
  let group := if text = [] then spaces.getLast?.toList else text
  let separator := if text = [] then spaces.dropLast else spaces
  if (header.take 6).map Char.toLower = "bearer".toList ∧ separator ≠ [] ∧ group ≠ [] ∧
      group.all fun c => !isLineTerminator c then some group
  else none

/-- `String.prototype.trim`. -/
def trim (text : List Char) : List Char :=
  (text.dropWhile Ledger.isWhiteSpace).rdropWhile Ledger.isWhiteSpace

/-- `decodeURIComponent`. -/
def decodeURIComponent (text : List Char) : Except String (List Char) :=
  match PercentEncoding.decode text with
  | some decoded => .ok decoded
  | none => .error "URI malformed"

/-- The first part `name=value`. -/
def readParts (name : List Char) : List (List Char) → Except String (Option (List Char))
  | [] => .ok none
  | part :: parts =>
    match (trim part).splitOn '=' with
    | [] => readParts name parts
    | key :: value =>
      if key = name ∧ value ≠ [] then (decodeURIComponent (['='].intercalate value)).map some
      else readParts name parts

/-- `readCookie` of the gateway. -/
def readCookie (header : Option (List Char)) (name : List Char) :
    Except String (Option (List Char)) :=
  match header with
  | none | some [] => .ok none
  | some header => readParts name (header.splitOn ';')

/-! ### The principal of a request -/

/-- The headers of a handshake. -/
structure Handshake where
  authorization : Option (List Char)
  cookie : Option (List Char)

/-- `authenticate` of the gateway at a second, with the secret that is configured.  The subject of
every token that the auth service has signed is a string. -/
def authenticate (secret : Option (List Char)) (auth : Auth.World) (now : ℕ)
    (handshake : Handshake) : Except String String :=
  match secret with
  | none | some [] => .error "JWT verification is not configured"
  | some secret => do
    let cookieToken ← readCookie handshake.cookie "accessToken".toList
    match (handshake.authorization.bind bearerToken).or cookieToken with
    | none | some [] => .error "Access token is required"
    | some token =>
      match auth.verify secret now token with
      | none => .error "invalid token"
      | some sub => .ok sub

/-- `JwtAuthGuard.canActivate`: the id of the user.  The email and the role of every token that the
auth service has signed are strings. -/
def canActivate (secret : Option (List Char)) (auth : Auth.World) (now : ℕ)
    (authorization : Option (List Char)) : Except Auth.HttpError String :=
  match secret with
  | none | some [] => .error (.serviceUnavailable "JWT verification is not configured")
  | some secret =>
    match authorization.bind bearerToken with
    | none | some [] => .error (.unauthorized "Bearer token is required")
    | some token =>
      match auth.verify secret now token with
      | none => .error (.unauthorized "Invalid or expired access token")
      | some sub => .ok sub

/-! ### Reading a header -/

/-- The header `Cookie` of a user agent. -/
def cookieHeader (cookies : List (List Char × List Char)) : List Char :=
  [';', ' '].intercalate (cookies.map fun cookie => cookie.1 ++ '=' :: cookie.2)

/-- The characters of a name and of a value. -/
def IsCookie (cookie : List Char × List Char) : Prop :=
  (∀ c ∈ cookie.1, c ≠ ';' ∧ c ≠ '=' ∧ Ledger.isWhiteSpace c = false) ∧
    ∀ c ∈ cookie.2, c ≠ ';' ∧ Ledger.isWhiteSpace c = false

/-- A text between white space. -/
lemma trim_append {lead text : List Char} (hlead : ∀ c ∈ lead, Ledger.isWhiteSpace c = true)
    (htext : ∀ c ∈ text, Ledger.isWhiteSpace c = false) : trim (lead ++ text) = text := by
  have hfirst : text.dropWhile Ledger.isWhiteSpace = text := by
    cases text with
    | nil => rfl
    | cons c text =>
      exact List.dropWhile_cons_of_neg (by rw [htext c List.mem_cons_self]; decide)
  unfold trim
  rw [List.dropWhile_append_of_pos hlead, hfirst, List.rdropWhile_eq_self_iff]
  intro hne
  rw [htext _ (List.getLast_mem hne)]
  decide

lemma readParts_cookie {name lead : List Char} {cookie : List Char × List Char}
    (hlead : ∀ c ∈ lead, Ledger.isWhiteSpace c = true) (h : IsCookie cookie)
    (parts : List (List Char)) :
    readParts name ((lead ++ (cookie.1 ++ '=' :: cookie.2)) :: parts) =
      if cookie.1 = name then (decodeURIComponent cookie.2).map some
      else readParts name parts := by
  have htext : ∀ c ∈ cookie.1 ++ '=' :: cookie.2, Ledger.isWhiteSpace c = false := by
    intro c hc
    rcases List.mem_append.mp hc with hc | hc
    · exact (h.1 c hc).2.2
    · rcases List.mem_cons.mp hc with rfl | hc
      · decide
      · exact (h.2 c hc).2
  have hsplit : (cookie.1 ++ '=' :: cookie.2).splitOn '=' = cookie.1 :: cookie.2.splitOn '=' :=
    List.splitOn_append_cons_self_of_not_mem (fun hmem => (h.1 _ hmem).2.1 rfl) _
  rw [readParts, trim_append hlead htext, hsplit]
  simp only [List.intercalate_splitOn, ne_eq, List.splitOn_ne_nil, not_false_eq_true, and_true]

/-- A cookie has no semicolon. -/
lemma IsCookie.not_mem {cookie : List Char × List Char} (h : IsCookie cookie) {lead : List Char}
    (hlead : ';' ∉ lead) : ';' ∉ lead ++ (cookie.1 ++ '=' :: cookie.2) := by
  intro hmem
  rcases List.mem_append.mp hmem with hmem | hmem
  · exact hlead hmem
  · rcases List.mem_append.mp hmem with hmem | hmem
    · exact (h.1 _ hmem).1 rfl
    · rcases List.mem_cons.mp hmem with heq | hmem
      · exact absurd heq (by decide)
      · exact (h.2 _ hmem).1 rfl

/-- A part without a value. -/
lemma readParts_blank (name : List Char) {lead : List Char} (hlead : lead = [] ∨ lead = [' ']) :
    readParts name [lead] = .ok none := by
  have htrim : trim lead = [] := by
    rcases hlead with rfl | rfl <;> decide
  rw [readParts, htrim, List.splitOn_nil]
  simp [readParts]

lemma readParts_cookieHeader {cookies : List (List Char × List Char)}
    (h : ∀ cookie ∈ cookies, IsCookie cookie) (name : List Char) {lead : List Char}
    (hlead : lead = [] ∨ lead = [' ']) :
    readParts name ((lead ++ cookieHeader cookies).splitOn ';') =
      match cookies.lookup name with
      | none => .ok none
      | some value => (decodeURIComponent value).map some := by
  have hspace : ∀ c ∈ lead, Ledger.isWhiteSpace c = true := by
    refine List.all_eq_true.mp ?_
    rcases hlead with rfl | rfl <;> rfl
  have hno : ';' ∉ lead := by
    rcases hlead with rfl | rfl <;> decide
  induction cookies generalizing lead with
  | nil =>
    have hsplit : (lead ++ cookieHeader []).splitOn ';' = [lead] := by
      rw [cookieHeader, List.map_nil, List.intercalate_nil, List.append_nil,
        List.splitOn_eq_singleton hno]
    rw [hsplit, readParts_blank name hlead]
    rfl
  | cons cookie cookies ih =>
    have hcookie := h cookie List.mem_cons_self
    have hnot := hcookie.not_mem hno
    have hrest : ∃ parts, (lead ++ cookieHeader (cookie :: cookies)).splitOn ';' =
          (lead ++ (cookie.1 ++ '=' :: cookie.2)) :: parts ∧
        readParts name parts = match cookies.lookup name with
          | none => .ok none
          | some value => (decodeURIComponent value).map some := by
      cases cookies with
      | nil =>
        rw [cookieHeader, List.map_singleton, List.intercalate_singleton]
        exact ⟨[], List.splitOn_eq_singleton hnot, rfl⟩
      | cons next cookies =>
        have hheader : lead ++ cookieHeader (cookie :: next :: cookies) =
            (lead ++ (cookie.1 ++ '=' :: cookie.2)) ++
              ';' :: ([' '] ++ cookieHeader (next :: cookies)) := by
          simp [cookieHeader, List.intercalate_cons_cons]
        refine ⟨_, by rw [hheader, List.splitOn_append_cons_self_of_not_mem hnot], ?_⟩
        exact ih (fun c hc => h c (List.mem_cons_of_mem _ hc)) (.inr rfl)
          (List.all_eq_true.mp rfl) (by decide)
    obtain ⟨parts, hsplit, hparts⟩ := hrest
    rw [hsplit, readParts_cookie hspace hcookie, List.lookup_cons]
    by_cases hname : cookie.1 = name
    · rw [if_pos hname, beq_iff_eq.mpr hname.symm]
    · rw [if_neg hname, beq_eq_false_iff_ne.mpr (Ne.symm hname)]
      exact hparts

/-- Of the cookies that a user agent sends, the first with the name is read. -/
lemma readCookie_cookieHeader {cookies : List (List Char × List Char)}
    (h : ∀ cookie ∈ cookies, IsCookie cookie) (name : List Char) :
    readCookie (some (cookieHeader cookies)) name =
      match cookies.lookup name with
      | none => .ok none
      | some value => (decodeURIComponent value).map some := by
  rw [← readParts_cookieHeader h name (.inl rfl), List.nil_append]
  unfold readCookie
  split
  · next heq => cases heq
  · next heq =>
    rw [Option.some.inj heq, List.splitOn_nil, readParts_blank name (.inl rfl)]
  · next heq => rw [Option.some.inj heq]

/-- The token after `Bearer`. -/
lemma bearerToken_header {scheme spaces token : List Char}
    (hscheme : scheme.map Char.toLower = "bearer".toList) (hne : spaces ≠ [])
    (hspaces : ∀ c ∈ spaces, Ledger.isWhiteSpace c = true) (hnil : token ≠ [])
    (htoken : ∀ c ∈ token, Ledger.isWhiteSpace c = false ∧ isLineTerminator c = false) :
    bearerToken (scheme ++ (spaces ++ token)) = some token := by
  have hlength : scheme.length = 6 := by
    have hmapped := congrArg List.length hscheme
    rwa [List.length_map] at hmapped
  have hfirst : token.takeWhile Ledger.isWhiteSpace = [] ∧
      token.dropWhile Ledger.isWhiteSpace = token := by
    cases token with
    | nil => exact ⟨rfl, rfl⟩
    | cons c token =>
      have hc := (htoken c List.mem_cons_self).1
      exact ⟨List.takeWhile_cons_of_neg (by simp [hc]), List.dropWhile_cons_of_neg (by simp [hc])⟩
  have hdrop : (spaces ++ token).dropWhile Ledger.isWhiteSpace = token := by
    rw [List.dropWhile_append_of_pos hspaces, hfirst.2]
  have htake : (spaces ++ token).takeWhile Ledger.isWhiteSpace = spaces := by
    rw [List.takeWhile_append_of_pos hspaces, hfirst.1, List.append_nil]
  have hall : token.all (fun c => !isLineTerminator c) = true := by
    refine List.all_eq_true.mpr fun c hc => ?_
    rw [(htoken c hc).2]
    rfl
  unfold bearerToken
  simp only [← hlength, List.drop_left, List.take_left, hdrop, htake, if_neg hnil]
  rw [if_pos ⟨hscheme, hne, hnil, hall⟩]

/-! ### The characters of a token -/

/-- A token is digits and dots. -/
lemma mem_alphabet_of_mem_sign {mac : List Char → List Char → List Char}
    (hmac : ∀ secret text, ∀ c ∈ mac secret text, c ∈ Base64Url.alphabet) {secret : List Char}
    {payload : JsonText.Value} {c : Char} (h : c ∈ JsonWebToken.sign mac secret payload) :
    c = '.' ∨ c ∈ Base64Url.alphabet := by
  rcases List.mem_append.mp h with hinput | hcode
  · rcases List.mem_append.mp hinput with hheader | hpayload
    · exact .inr (Base64Url.mem_alphabet_of_mem_encode hheader)
    · rcases List.mem_cons.mp hpayload with rfl | hpayload
      · exact .inl rfl
      · exact .inr (Base64Url.mem_alphabet_of_mem_encode hpayload)
  · rcases List.mem_cons.mp hcode with rfl | hcode
    · exact .inl rfl
    · exact .inr (hmac _ _ c hcode)

/-- A digit or a dot is neither white space nor the end of a line. -/
lemma token_char {c : Char} (h : c = '.' ∨ c ∈ Base64Url.alphabet) :
    Ledger.isWhiteSpace c = false ∧ isLineTerminator c = false := by
  have hall : ('.' :: Base64Url.alphabet).all (fun c =>
      Ledger.isWhiteSpace c = false ∧ isLineTerminator c = false) = true := by decide +kernel
  exact of_decide_eq_true (List.all_eq_true.mp hall c (List.mem_cons.mpr h))

end Notifications

/-! ### What the auth service signs -/

namespace Auth

variable {p : Platform} {d : Draws} {w : World}

/-- The user whom a request signs in. -/
def Operation.SignsIn (p : Platform) (d : Draws) (w : World) : Operation → String → Prop
  | .register _, userId => userId = d.id
  | .login dto, userId => ∃ user ∈ w.users.rows, user.email = dto.email ∧ user.id = userId
  | .refresh token, userId => w.subject p d.verifiedAt token = some userId

/-- The access token of the pair is signed for the user. -/
def Issues (p : Platform) (d : Draws) (w : World) (pair : TokenPair) (userId : String) : Prop :=
  ∃ secret user, p.secret .JWT_ACCESS_SECRET = .ok secret ∧ user.id = userId ∧
    p.sign secret user d.accessSignedAt p.accessLifetime ∈ w.signed ∧
    pair.accessToken = (p.sign secret user d.accessSignedAt p.accessLifetime).text

lemma issueTokens_issues {user : User} {pair : TokenPair}
    (h : (issueTokens p d user w).2 = .ok pair) :
    Issues p d (issueTokens p d user w).1 pair user.id := by
  cases haccess : p.secret .JWT_ACCESS_SECRET with
  | error e =>
    unfold issueTokens at h
    rw [haccess] at h
    cases h
  | ok accessSecret =>
    cases hrefresh : p.secret .JWT_REFRESH_SECRET with
    | error e =>
      unfold issueTokens at h
      rw [haccess, hrefresh] at h
      cases h
    | ok refreshSecret =>
      rw [issueTokens_eq haccess hrefresh] at h ⊢
      obtain rfl := Except.ok.inj h
      exact ⟨accessSecret, user, haccess, rfl, List.mem_cons_of_mem _ List.mem_cons_self, rfl⟩

/-- A request is refused, or it issues tokens to the user whom it signs in. -/
lemma perform_cases (operation : Operation) :
    (∃ e, operation.perform p d w = (w, .error e)) ∨
      ∃ user users, operation.SignsIn p d w user.id ∧
        operation.perform p d w = issueTokens p d user { w with users } := by
  cases operation with
  | register dto =>
    change (∃ e, register p d dto w = _) ∨ ∃ user users, _ ∧ register p d dto w = _
    unfold register
    split
    · exact .inl ⟨_, rfl⟩
    · dsimp only
      split
      · exact .inl ⟨_, rfl⟩
      · refine .inr ⟨_, _, ?_, rfl⟩
        rfl
  | login dto =>
    change (∃ e, login p d dto w = _) ∨ ∃ user users, _ ∧ login p d dto w = _
    unfold login
    split
    · exact .inl ⟨_, rfl⟩
    · next user hfound =>
      have hemail := List.find?_some hfound
      simp only [decide_eq_true_eq] at hemail
      split
      · exact .inr ⟨user, w.users, ⟨user, List.mem_of_find?_eq_some hfound, hemail, rfl⟩, rfl⟩
      · exact .inl ⟨_, rfl⟩
  | refresh token =>
    change (∃ e, refresh p d token w = _) ∨ ∃ user users, _ ∧ refresh p d token w = _
    unfold refresh
    split
    · exact .inl ⟨_, rfl⟩
    · next sub hsubject =>
      split
      · exact .inl ⟨_, rfl⟩
      · next user hfound =>
        split
        · exact .inl ⟨_, rfl⟩
        · exact .inl ⟨_, rfl⟩
        · split
          · refine .inr ⟨user, w.users, ?_, rfl⟩
            rw [UserTable.id_of_findById hfound]
            exact hsubject
          · exact .inl ⟨_, rfl⟩

/-- The pair that a request returns is for the user whom it signs in. -/
lemma perform_issues {operation : Operation} {pair : TokenPair}
    (h : (operation.perform p d w).2 = .ok pair) : ∃ userId, operation.SignsIn p d w userId ∧
      Issues p d (operation.perform p d w).1 pair userId := by
  rcases perform_cases operation with ⟨e, he⟩ | ⟨user, users, hfor, heq⟩
  · rw [he] at h
    cases h
  · rw [heq] at h ⊢
    exact ⟨user.id, hfor, issueTokens_issues h⟩

/-- What was signed stays signed. -/
lemma signed_issueTokens (user : User) : w.signed ⊆ (issueTokens p d user w).1.signed := by
  unfold issueTokens
  split
  · exact List.Subset.refl _
  · split
    · exact List.Subset.refl _
    · exact fun s hs => List.mem_cons_of_mem _ (List.mem_cons_of_mem _ hs)

lemma signed_perform (operation : Operation) :
    w.signed ⊆ (operation.perform p d w).1.signed := by
  rcases perform_cases (p := p) (d := d) (w := w) operation with ⟨e, he⟩ | ⟨user, users, -, heq⟩
  · rw [he]
    exact List.Subset.refl _
  · rw [heq]
    exact signed_issueTokens (w := { w with users }) user

lemma World.Inv.perform (hinv : w.Inv p) (operation : Operation) :
    (operation.perform p d w).1.Inv p := by
  cases operation with
  | register dto => exact register_inv hinv dto
  | login dto => exact login_inv hinv dto
  | refresh token => exact refresh_inv hinv token

/-- A token that has not expired verifies for the user to whom it was issued. -/
lemma World.Inv.verify (hinv : w.Inv p) {s : Signed} (hs : s ∈ w.signed) {now : ℕ}
    (hnow : now < s.exp) : w.verify s.secret now s.text = some s.sub := by
  have huuid : ∀ t ∈ w.signed, Ledger.isUuid t.sub = true := by
    intro t ht
    obtain ⟨user, _, _, hfound, -⟩ := hinv.hashes t ht
    exact UserTable.id_of_findById hfound ▸ user.isUuid
  have hsome : (w.signed.find? fun t => t.text = s.text ∧ t.secret = s.secret ∧
      now < t.exp).isSome = true :=
    List.find?_isSome.mpr ⟨s, hs, decide_eq_true ⟨rfl, rfl, hnow⟩⟩
  obtain ⟨t, ht⟩ := Option.isSome_iff_exists.mp hsome
  have hmatch := List.find?_some ht
  simp only [decide_eq_true_eq] at hmatch
  have hmem := List.mem_of_find?_eq_some ht
  have htoken := hinv.tokens t hmem
  rw [hmatch.1] at htoken
  have hsub := id_eq_of_isTokenOf (huuid t hmem) (huuid s hs) htoken (hinv.tokens s hs)
  rw [World.verify, ht, Option.map_some, hsub]

lemma Issues.verify {pair : TokenPair} {userId : String} (h : Issues p d w pair userId)
    (hinv : w.Inv p) {now : ℕ} (hnow : now < d.accessSignedAt + p.accessLifetime) :
    ∃ c value, p.env .JWT_ACCESS_SECRET = some (c :: value) ∧
      w.verify (c :: value) now pair.accessToken = some userId := by
  obtain ⟨secret, user, hsecret, rfl, hmem, htext⟩ := h
  unfold Platform.secret at hsecret
  split at hsecret
  · next c value henv =>
    obtain rfl := Except.ok.inj hsecret
    refine ⟨c, value, henv, ?_⟩
    rw [htext]
    exact hinv.verify hmem hnow
  · cases hsecret

/-- The state after one operation more. -/
lemma run_append_singleton (p : Platform) (operations : List (Draws × Operation))
    (last : Draws × Operation) :
    run p (operations ++ [last]) = (last.2.perform p last.1 (run p operations)).1 := by
  unfold run
  rw [List.foldl_append]
  rfl

/-- What was issued stays issued. -/
lemma run_issues {before after : List (Draws × Operation)} {operation : Operation}
    {pair : TokenPair} {userId : String}
    (h : Issues p d (operation.perform p d (run p before)).1 pair userId) :
    Issues p d (run p (before ++ (d, operation) :: after)) pair userId := by
  have hsigned : (operation.perform p d (run p before)).1.signed ⊆
      (run p (before ++ (d, operation) :: after)).signed := by
    induction after using List.reverseRecOn with
    | nil =>
      rw [run_append_singleton]
      exact List.Subset.refl _
    | append_singleton after last ih =>
      rw [← List.cons_append, ← List.append_assoc, run_append_singleton]
      exact List.Subset.trans ih (signed_perform last.2)
  obtain ⟨secret, user, hsecret, hid, hmem, htext⟩ := h
  exact ⟨secret, user, hsecret, hid, hsigned hmem, htext⟩

end Auth

/-! ### Acceptance -/

namespace Notifications

open Formats

/-- Access is given for a token that verifies. -/
lemma accepted_of_verify {auth : Auth.World} {now : ℕ} {token secret : List Char} {c : Char}
    {userId : String} (hverify : auth.verify (c :: secret) now token = some userId)
    (hnil : token ≠ []) :
    (∀ header, bearerToken header = some token →
      canActivate (some (c :: secret)) auth now (some header) = .ok userId ∧
      ∀ cookie found, readCookie cookie "accessToken".toList = .ok found →
        authenticate (some (c :: secret)) auth now ⟨some header, cookie⟩ = .ok userId) ∧
    ∀ cookie, readCookie cookie "accessToken".toList = .ok (some token) →
      authenticate (some (c :: secret)) auth now ⟨none, cookie⟩ = .ok userId := by
  obtain ⟨first, rest, rfl⟩ := List.exists_cons_of_ne_nil hnil
  refine ⟨fun header hheader => ⟨?_, fun cookie found hfound => ?_⟩, fun cookie hcookie => ?_⟩
  · simp only [canActivate, Option.bind_some, hheader, hverify]
  · simp only [authenticate, Option.bind_some, hheader, hfound, Option.some_or]
    change (match auth.verify (c :: secret) now (first :: rest) with
      | none => _
      | some sub => _) = _
    rw [hverify]
  · simp only [authenticate, hcookie, Option.bind_none, Option.none_or]
    change (match auth.verify (c :: secret) now (first :: rest) with
      | none => _
      | some sub => _) = _
    rw [hverify]

/-- The access token of every registration, login and refresh is accepted until it expires, for the
user whom the request has signed in, whatever other requests follow: in the header `Authorization`
by the guard, and by the gateway unless a cookie is malformed, and in the cookie by the gateway. -/
theorem issued_token_accepted (p : Auth.Platform)
    (hmac : ∀ secret text, ∀ c ∈ p.mac secret text, c ∈ Base64Url.alphabet)
    (before after : List (Auth.Draws × Auth.Operation)) (d : Auth.Draws)
    (operation : Auth.Operation) {pair : Auth.TokenPair}
    (h : (operation.perform p d (Auth.run p before)).2 = .ok pair) :
    ∃ userId, operation.SignsIn p d (Auth.run p before) userId ∧
      ∀ now < d.accessSignedAt + p.accessLifetime,
        (∀ scheme spaces, scheme.map Char.toLower = "bearer".toList → spaces ≠ [] →
          (∀ c ∈ spaces, Ledger.isWhiteSpace c = true) →
          canActivate (p.env .JWT_ACCESS_SECRET)
              (Auth.run p (before ++ (d, operation) :: after)) now
              (some (scheme ++ (spaces ++ pair.accessToken))) = .ok userId ∧
          ∀ cookie found, readCookie cookie "accessToken".toList = .ok found →
            authenticate (p.env .JWT_ACCESS_SECRET)
              (Auth.run p (before ++ (d, operation) :: after)) now
              ⟨some (scheme ++ (spaces ++ pair.accessToken)), cookie⟩ = .ok userId) ∧
        ∀ cookies, (∀ cookie ∈ cookies, IsCookie cookie) →
          cookies.lookup "accessToken".toList = some (PercentEncoding.encode pair.accessToken) →
          authenticate (p.env .JWT_ACCESS_SECRET)
            (Auth.run p (before ++ (d, operation) :: after)) now
            ⟨none, some (cookieHeader cookies)⟩ = .ok userId := by
  obtain ⟨userId, hfor, hissues⟩ := Auth.perform_issues h
  refine ⟨userId, hfor, fun now hnow => ?_⟩
  have hchars : pair.accessToken ≠ [] ∧ ∀ c ∈ pair.accessToken,
      Ledger.isWhiteSpace c = false ∧ isLineTerminator c = false := by
    obtain ⟨secret, user, -, -, -, htext⟩ := hissues
    rw [htext]
    exact ⟨List.append_ne_nil_of_right_ne_nil _ (List.cons_ne_nil _ _),
      fun c hc => token_char (mem_alphabet_of_mem_sign hmac hc)⟩
  have hlater : Auth.Issues p d (Auth.run p (before ++ (d, operation) :: after)) pair userId :=
    Auth.run_issues hissues
  obtain ⟨c, secret, henv, hverify⟩ := hlater.verify (Auth.run_inv p _) hnow
  obtain ⟨hbearer, hcookie⟩ := accepted_of_verify hverify hchars.1
  rw [henv]
  refine ⟨fun scheme spaces hscheme hne hspaces => ?_, fun cookies hcookies hlookup => ?_⟩
  · exact hbearer _ (bearerToken_header hscheme hne hspaces hchars.1 hchars.2)
  · refine hcookie _ ?_
    rw [readCookie_cookieHeader hcookies, hlookup]
    dsimp only
    rw [decodeURIComponent, PercentEncoding.decode_encode]
    rfl

/-- Ann is accepted after she has registered. -/
theorem issued_token_accepted_ann : ∃ pair,
    ((Auth.Operation.register Auth.ann).perform Auth.plain (Auth.drawsAt 0)
      (Auth.run Auth.plain [])).2 = .ok pair ∧
    canActivate (Auth.plain.env .JWT_ACCESS_SECRET)
      (Auth.run Auth.plain [(Auth.drawsAt 0, .register Auth.ann)]) 5
      (some ("BEARER".toList ++ ([' '] ++ pair.accessToken))) = .ok Auth.annsId := by
  have hmac : ∀ secret text, ∀ c ∈ Auth.plain.mac secret text, c ∈ Base64Url.alphabet :=
    fun _ _ _ => Base64Url.mem_alphabet_of_mem_encode
  obtain ⟨pair, hpair⟩ : ∃ pair, ((Auth.Operation.register Auth.ann).perform Auth.plain
      (Auth.drawsAt 0) (Auth.run Auth.plain [])).2 = .ok pair := ⟨_, rfl⟩
  obtain ⟨userId, rfl, haccepted⟩ :=
    issued_token_accepted Auth.plain hmac [] [] (Auth.drawsAt 0) (.register Auth.ann) hpair
  exact ⟨pair, hpair, ((haccepted 5 (by decide)).1 "BEARER".toList [' '] (by decide) (by decide)
    (List.all_eq_true.mp rfl)).1⟩

end Notifications

end PeerLedger
