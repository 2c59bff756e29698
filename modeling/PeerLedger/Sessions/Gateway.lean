import PeerLedger.Notifications.Authentication
import PeerLedger.Sessions.Frontend

/-!
# The gateway

The guard of the routes `/bff` verifies the bearer token with the secret of the access tokens and
reads the principal from its payload; the auth routes pass the answer of the auth service on.

A principal is the user for whom the token was signed (`userId_of_canActivate`).
-/

namespace PeerLedger

namespace Sessions

open Formats

/-! ### The guard -/

structure Principal where
  userId : String
  email : String
  role : String
  deriving DecidableEq

/-- The principal of a payload, if the three members are strings. -/
def principalOf (payload : JsonText.Value) : Option Principal :=
  match payload.member "sub".toList, payload.member "email".toList,
    payload.member "role".toList with
  | some (.string sub), some (.string email), some (.string role) =>
    some ⟨String.ofList sub, String.ofList email, String.ofList role⟩
  | _, _, _ => none

/-- `JwtPrincipalGuard.canActivate` at a second. -/
def canActivate (secret : Option (List Char)) (auth : Auth.World) (now : ℕ)
    (authorization : Option (List Char)) : Except Auth.HttpError Principal :=
  match secret with
  | none | some [] => .error (.serviceUnavailable "JWT is not configured")
  | some secret =>
    match authorization.bind Notifications.bearerToken with
    | none | some [] => .error (.unauthorized "Bearer token is required")
    | some token =>
      match auth.verify secret now token with
      | none => .error (.unauthorized "Invalid or expired access token")
      | some _ =>
        match (JsonWebToken.payloadOf token).bind principalOf with
        | none => .error (.unauthorized "Invalid or expired access token")
        | some principal => .ok principal

/-! ### Refusals -/

/-- The status, the message and the reason of an exception. -/
def reason : Auth.HttpError → ℕ × String × String
  | .conflict message => (409, message, "Conflict")
  | .unauthorized message => (401, message, "Unauthorized")
  | .serviceUnavailable message => (503, message, "Service Unavailable")
  | .duplicateKey => (500, "Internal server error", "Internal Server Error")

/-- The response to a request that ends with an exception. -/
def Refusal.of (e : Auth.HttpError) : Refusal where
  status := (reason e).1
  body := JsonText.stringify (.object [("message".toList, .string (reason e).2.1.toList),
    ("error".toList, .string (reason e).2.2.toList),
    ("statusCode".toList, .number (toString (reason e).1).toList)])

def Upstream.of (e : Auth.HttpError) : Upstream where
  status := (Refusal.of e).status
  contentType := some "application/json; charset=utf-8".toList
  body := (Refusal.of e).body

/-! ### Signed tokens -/

/-- The token was signed for the user, with the secret of this name. -/
def SignedFor (p : Auth.Platform) (name : Auth.SecretName) (signed : List Auth.Signed)
    (userId : String) (token : List Char) : Prop :=
  ∃ s ∈ signed, s.text = token ∧ s.sub = userId ∧ p.secret name = .ok s.secret

/-- The tokens of a pair were signed for the user. -/
structure PairFor (p : Auth.Platform) (signed : List Auth.Signed) (userId : String)
    (pair : Auth.TokenPair) : Prop where
  access : SignedFor p .JWT_ACCESS_SECRET signed userId pair.accessToken
  refresh : SignedFor p .JWT_REFRESH_SECRET signed userId pair.refreshToken

/-- Everything that is signed is the token of a user. -/
def Signs (p : Auth.Platform) (w : Auth.World) : Prop :=
  ∀ s ∈ w.signed, ∃ user iat lifetime, s = p.sign s.secret user iat lifetime

variable {p : Auth.Platform} {d : Auth.Draws} {w : Auth.World}

lemma SignedFor.mono {name : Auth.SecretName} {signed signed' : List Auth.Signed}
    {userId : String} {token : List Char} (h : SignedFor p name signed userId token)
    (hsub : signed ⊆ signed') : SignedFor p name signed' userId token := by
  obtain ⟨s, hs, hrest⟩ := h
  exact ⟨s, hsub hs, hrest⟩

lemma PairFor.mono {signed signed' : List Auth.Signed} {userId : String} {pair : Auth.TokenPair}
    (h : PairFor p signed userId pair) (hsub : signed ⊆ signed') :
    PairFor p signed' userId pair := ⟨h.access.mono hsub, h.refresh.mono hsub⟩

lemma issueTokens_pairFor {user : Auth.User} {pair : Auth.TokenPair}
    (h : (Auth.issueTokens p d user w).2 = .ok pair) :
    PairFor p (Auth.issueTokens p d user w).1.signed user.id pair := by
  unfold Auth.issueTokens at h ⊢
  split at h
  · exact absurd h (by simp)
  · next accessSecret haccess =>
    split at h
    · exact absurd h (by simp)
    · next refreshSecret hrefresh =>
      obtain rfl := Except.ok.inj h
      exact ⟨⟨_, List.mem_cons_of_mem _ List.mem_cons_self, rfl, rfl, haccess⟩,
        ⟨_, List.mem_cons_self, rfl, rfl, hrefresh⟩⟩

/-- The pair that a request returns was signed for the user whom it signs in. -/
lemma perform_pairFor {operation : Auth.Operation} {pair : Auth.TokenPair}
    (h : (operation.perform p d w).2 = .ok pair) : ∃ userId, operation.SignsIn p d w userId ∧
      PairFor p (operation.perform p d w).1.signed userId pair := by
  rcases Auth.perform_cases operation with ⟨e, he⟩ | ⟨user, users, hfor, heq⟩
  · rw [he] at h
    exact absurd h (by simp)
  · rw [heq] at h ⊢
    exact ⟨user.id, hfor, issueTokens_pairFor h⟩

lemma issueTokens_signs (h : Signs p w) (user : Auth.User) :
    Signs p (Auth.issueTokens p d user w).1 := by
  unfold Auth.issueTokens
  split
  · exact h
  · split
    · exact h
    · intro s hs
      rcases List.mem_cons.mp hs with rfl | hs
      · exact ⟨user, _, _, rfl⟩
      · rcases List.mem_cons.mp hs with rfl | hs
        · exact ⟨user, _, _, rfl⟩
        · exact h s hs

/-- After every run, everything that is signed is the token of a user. -/
lemma run_signs (p : Auth.Platform) (operations : List (Auth.Draws × Auth.Operation)) :
    Signs p (Auth.run p operations) := by
  induction operations using List.reverseRecOn with
  | nil => exact fun s hs => absurd hs List.not_mem_nil
  | append_singleton operations last ih =>
    rw [Auth.run_append_singleton]
    rcases Auth.perform_cases (p := p) (d := last.1) (w := Auth.run p operations) last.2 with
      ⟨e, he⟩ | ⟨user, users, -, heq⟩
    · rw [he]
      exact ih
    · rw [heq]
      exact issueTokens_signs (w := { Auth.run p operations with users }) ih user

/-! ### The payload of a token -/

lemma wellFormed_payload (user : Auth.User) (iat exp : ℕ) :
    JsonText.WellFormed (Auth.payload user iat exp) := by
  refine .object fun m hm => ?_
  simp only [List.mem_cons, List.not_mem_nil, or_false] at hm
  rcases hm with rfl | rfl | rfl | rfl | rfl
  · exact .string _
  · exact .string _
  · exact .string _
  · exact .number (JsonText.isLiteral_natCast iat)
  · exact .number (JsonText.isLiteral_natCast exp)

/-- The payload of a signed token names its user. -/
lemma principal_sign (secret : List Char) (user : Auth.User) (iat lifetime : ℕ) :
    (JsonWebToken.payloadOf (p.sign secret user iat lifetime).text).bind principalOf =
      some ⟨user.id, user.email, String.ofList user.role.toText⟩ := by
  have hpayload : JsonWebToken.payloadOf (p.sign secret user iat lifetime).text =
      some (Auth.payload user iat (iat + lifetime)) :=
    JsonWebToken.payloadOf_sign p.mac secret (wellFormed_payload user iat (iat + lifetime))
  have hsub : (Auth.payload user iat (iat + lifetime)).member "sub".toList =
      some (.string user.id.toList) := rfl
  have hemail : (Auth.payload user iat (iat + lifetime)).member "email".toList =
      some (.string user.email.toList) := rfl
  have hrole : (Auth.payload user iat (iat + lifetime)).member "role".toList =
      some (.string user.role.toText) := rfl
  rw [hpayload, Option.bind_some, principalOf, hsub, hemail, hrole]
  simp only [String.ofList_toList]

lemma principal_signedFor (hw : Signs p w) {name : Auth.SecretName} {userId : String}
    {token : List Char} (h : SignedFor p name w.signed userId token) :
    ∃ principal, (JsonWebToken.payloadOf token).bind principalOf = some principal ∧
      principal.userId = userId := by
  obtain ⟨s, hs, rfl, rfl, -⟩ := h
  obtain ⟨user, iat, lifetime, heq⟩ := hw s hs
  rw [heq]
  exact ⟨_, principal_sign _ user iat lifetime, rfl⟩

/-! ### The bearer token -/

/-- A token begins with a digit. -/
lemma sign_cons (secret : List Char) (payload : JsonText.Value) :
    ∃ c rest, JsonWebToken.sign p.mac secret payload = c :: rest ∧
      Ledger.isWhiteSpace c = false := by
  obtain ⟨c, rest, hheader⟩ : ∃ c rest,
      JsonWebToken.segment (JsonText.stringify JsonWebToken.header) = c :: rest := by
    refine List.exists_cons_of_ne_nil fun hnil => ?_
    have hlength := JsonWebToken.length_header
    rw [hnil] at hlength
    exact absurd hlength (by decide)
  have hmem : c ∈ JsonWebToken.segment (JsonText.stringify JsonWebToken.header) := by
    rw [hheader]
    exact List.mem_cons_self
  have hc : Ledger.isWhiteSpace c = false :=
    (Notifications.token_char (.inr (Base64Url.mem_alphabet_of_mem_encode hmem))).1
  unfold JsonWebToken.sign JsonWebToken.signingInput
  rw [hheader, List.append_assoc, List.cons_append]
  exact ⟨c, _, rfl, hc⟩

/-- The bearer token of a call is the token that it was made with. -/
lemma eq_of_bearerToken {call : BffCall} {c : Char} {rest token : List Char}
    (hcall : call.token = c :: rest) (hc : Ledger.isWhiteSpace c = false)
    (h : Notifications.bearerToken call.authorization = some token) : token = call.token := by
  have hspace : Ledger.isWhiteSpace ' ' = true := by decide
  have hdrop : call.authorization.drop 6 = ' ' :: c :: rest := by
    rw [← hcall]
    rfl
  rw [hcall]
  unfold Notifications.bearerToken at h
  simp only [hdrop, List.dropWhile_cons, List.takeWhile_cons, hspace, hc, if_true,
    reduceCtorEq, if_false] at h
  split_ifs at h with hgroup
  exact (Option.some.inj h).symm

/-- Access is given to the principal of a token that verifies. -/
lemma canActivate_eq_ok {secret : Option (List Char)} {now : ℕ} {authorization : Option (List Char)}
    {principal : Principal} (h : canActivate secret w now authorization = .ok principal) :
    ∃ c value token sub, secret = some (c :: value) ∧
      authorization.bind Notifications.bearerToken = some token ∧
      w.verify (c :: value) now token = some sub ∧
      (JsonWebToken.payloadOf token).bind principalOf = some principal := by
  unfold canActivate at h
  split at h
  · exact absurd h (by simp)
  · exact absurd h (by simp)
  · next value hne =>
    split at h
    · exact absurd h (by simp)
    · exact absurd h (by simp)
    · next token _ hbearer =>
      obtain ⟨c, rest, rfl⟩ := List.exists_cons_of_ne_nil hne
      split at h
      · exact absurd h (by simp)
      · next sub hverify =>
        split at h
        · exact absurd h (by simp)
        · next found hfound =>
          obtain rfl := Except.ok.inj h
          exact ⟨c, rest, token, sub, rfl, hbearer, hverify, hfound⟩

/-- The principal of a call is the user for whom its token was signed. -/
theorem userId_of_canActivate (hw : Signs p w) {secret : Option (List Char)} {now : ℕ}
    {call : BffCall} {principal : Principal} {name : Auth.SecretName} {userId : String}
    (hcall : SignedFor p name w.signed userId call.token)
    (h : canActivate secret w now (some call.authorization) = .ok principal) :
    principal.userId = userId := by
  obtain ⟨claimed, hclaimed, rfl⟩ := principal_signedFor hw hcall
  obtain ⟨_, _, token, _, -, hbearer, -, hprincipal⟩ := canActivate_eq_ok h
  obtain ⟨s, hs, htext, -, -⟩ := hcall
  obtain ⟨user, iat, lifetime, heq⟩ := hw s hs
  obtain ⟨c, rest, hsign, hc⟩ := sign_cons (p := p) s.secret (Auth.payload user iat (iat + lifetime))
  have htoken : call.token = c :: rest := by
    rw [← htext, heq]
    exact hsign
  rw [eq_of_bearerToken htoken hc hbearer, hclaimed] at hprincipal
  exact congrArg Principal.userId (Option.some.inj hprincipal).symm

end Sessions

end PeerLedger
