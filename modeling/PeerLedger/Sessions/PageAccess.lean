import PeerLedger.Sessions.RequestUsers

/-!
# Which pages the middleware lets through

The middleware of the frontend does not know the secret: it reads the payload of the access token as a
binary string and compares the time at which the token expires.  For the tokens of a session this
agrees with the guard of the gateway, which verifies them (`middleware_agrees`).
-/

namespace PeerLedger

namespace Sessions

open Formats

variable {β : Type} {s : Setting} {log : Log β}

/-! ### Reading a token without the secret -/

/-- The payload that the middleware reads. -/
lemma parse_ofText_payload (user : Auth.User) (iat exp : ℕ) :
    ∃ members, JsonText.parse (BinaryString.ofText (JsonText.stringify (Auth.payload user iat exp))) =
        some (.object members) ∧
      (JsonText.Value.object members).member "exp".toList =
        some (.number (toString exp).toList) := by
  have hmembers : BinaryString.ofText (JsonText.stringify (Auth.payload user iat exp)) =
      JsonText.stringify (.object ([("sub".toList, .string user.id.toList),
        ("email".toList, .string user.email.toList), ("role".toList, .string user.role.toText),
        ("iat".toList, .number (toString iat).toList),
        ("exp".toList, .number (toString exp).toList)].map fun m =>
          (BinaryString.ofText m.1, BinaryString.ofValue m.2))) := by
    refine BinaryString.ofText_object fun m hm => ?_
    simp only [List.mem_cons, List.not_mem_nil, or_false] at hm
    rcases hm with rfl | rfl | rfl | rfl | rfl
    · exact BinaryString.ofText_quote _
    · exact BinaryString.ofText_quote _
    · exact BinaryString.ofText_quote _
    · exact BinaryString.ofText_digits iat
    · exact BinaryString.ofText_digits exp
  have hkey : BinaryString.ofText "exp".toList = "exp".toList :=
    BinaryString.ofText_eq fun c hc => by
      have hall : "exp".toList.all (fun c => c.toNat < 128) = true := by decide
      exact of_decide_eq_true (List.all_eq_true.mp hall c hc)
  rw [hmembers, JsonText.parse_stringify]
  · refine ⟨_, rfl, ?_⟩
    simp only [JsonText.Value.member, List.map_cons, List.map_nil, List.reverse_cons,
      List.reverse_nil, List.nil_append, List.cons_append, hkey, BinaryString.ofValue,
      List.lookup_cons_self]
  · refine .object fun m hm => ?_
    simp only [List.map_cons, List.map_nil, List.mem_cons, List.not_mem_nil, or_false] at hm
    rcases hm with rfl | rfl | rfl | rfl | rfl
    · exact .string _
    · exact .string _
    · exact .string _
    · exact .number (JsonText.isLiteral_natCast iat)
    · exact .number (JsonText.isLiteral_natCast exp)

/-- What the middleware finds in a token that was signed. -/
lemma isExpired_sign (p : Auth.Platform) (secret : List Char) (user : Auth.User)
    (iat lifetime now : ℕ) : isExpired now (p.sign secret user iat lifetime).text =
      decide ((iat + lifetime) * 1000 ≤ now + 5000) := by
  obtain ⟨rest, hsplit⟩ :=
    JsonWebToken.splitOn_sign p.mac secret (Auth.payload user iat (iat + lifetime))
  obtain ⟨members, hparse, hmember⟩ := parse_ofText_payload user iat (iat + lifetime)
  have hatob := BinaryString.atob_encode
    (Utf8.encode (JsonText.stringify (Auth.payload user iat (iat + lifetime))))
  have htext : (p.sign secret user iat lifetime).text.splitOn '.' =
      JsonWebToken.segment (JsonText.stringify JsonWebToken.header) ::
        JsonWebToken.segment (JsonText.stringify (Auth.payload user iat (iat + lifetime))) :: rest :=
    hsplit
  have hpayload : (BinaryString.atob ((JsonWebToken.segment (JsonText.stringify
      (Auth.payload user iat (iat + lifetime)))).map BinaryString.plain)).bind JsonText.parse =
        some (.object members) := by
    rw [JsonWebToken.segment, hatob, Option.bind_some]
    exact hparse
  unfold isExpired
  rw [htext]
  simp only [hpayload, hmember, JsonText.readLiteral_natCast]
  refine decide_eq_decide.mpr ?_
  exact_mod_cast Iff.rfl

/-- Two tokens with one text expire at the same time. -/
lemma exp_eq {p : Auth.Platform} {auth : Auth.World} (hsigns : Signs p auth) {t t' : Auth.Signed}
    (ht : t ∈ auth.signed) (ht' : t' ∈ auth.signed) (htext : t.text = t'.text) :
    t.exp = t'.exp := by
  obtain ⟨user, iat, lifetime, heq⟩ := hsigns t ht
  obtain ⟨user', iat', lifetime', heq'⟩ := hsigns t' ht'
  have hpayload := JsonWebToken.payloadOf_sign p.mac t.secret
    (wellFormed_payload user iat (iat + lifetime))
  have hpayload' := JsonWebToken.payloadOf_sign p.mac t'.secret
    (wellFormed_payload user' iat' (iat' + lifetime'))
  have hsame : JsonWebToken.sign p.mac t.secret (Auth.payload user iat (iat + lifetime)) =
      JsonWebToken.sign p.mac t'.secret (Auth.payload user' iat' (iat' + lifetime')) := by
    rw [heq, heq'] at htext
    exact htext
  rw [hsame, hpayload'] at hpayload
  have hmember := congrArg (JsonText.Value.member "exp".toList) (Option.some.inj hpayload)
  have hliteral : some (JsonText.Value.number (toString (iat' + lifetime')).toList) =
      some (.number (toString (iat + lifetime)).toList) := hmember
  have hnumber := congrArg JsonText.readLiteral
    (JsonText.Value.number.inj (Option.some.inj hliteral))
  rw [JsonText.readLiteral_natCast, JsonText.readLiteral_natCast] at hnumber
  have hexp : t.exp = iat + lifetime := by rw [heq]; rfl
  have hexp' : t'.exp = iat' + lifetime' := by rw [heq']; rfl
  rw [hexp, hexp']
  exact_mod_cast hnumber.symm

/-- The guard gives access to the principal of a token that verifies. -/
lemma canActivate_of_verify {auth : Auth.World} {now : ℕ} {c : Char} {value token header : List Char}
    {sub : String} {principal : Principal} (hheader : Notifications.bearerToken header = some token)
    (hne : token ≠ []) (hverify : auth.verify (c :: value) now token = some sub)
    (hprincipal : (JsonWebToken.payloadOf token).bind principalOf = some principal) :
    canActivate (some (c :: value)) auth now (some header) = .ok principal := by
  obtain ⟨first, rest, rfl⟩ := List.exists_cons_of_ne_nil hne
  simp only [canActivate, Option.bind_some, hheader, hverify, hprincipal]

/-! ### The middleware and the gateway -/

/-- The guard of the gateway accepts a call with an access token until the token expires. -/
lemma canActivate_iff (hmac : ∀ secret text, ∀ c ∈ s.platform.mac secret text, c ∈ Base64Url.alphabet)
    (hsecret : s.secret = s.platform.env .JWT_ACCESS_SECRET) {t : Auth.Signed}
    (ht : t ∈ (log.auth s.platform).signed)
    (haccess : s.platform.secret .JWT_ACCESS_SECRET = .ok t.secret) {call : BffCall}
    (hcall : call.token = t.text) (now : ℕ) :
    (∃ principal, canActivate s.secret (log.auth s.platform) now (some call.authorization) =
      .ok principal ∧ principal.userId = t.sub) ↔ now < t.exp := by
  have hsigns := run_signs s.platform (log.entries.map Prod.snd)
  obtain ⟨user, iat, lifetime, heq⟩ := hsigns t ht
  have htext : call.token = JsonWebToken.sign s.platform.mac t.secret
      (Auth.payload user iat (iat + lifetime)) := by
    rw [hcall]
    exact congrArg Auth.Signed.text heq
  constructor
  · rintro ⟨principal, hok, -⟩
    obtain ⟨c, value, token, sub, -, hbearer, hverify, -⟩ := canActivate_eq_ok hok
    obtain ⟨first, rest, hsign, hfirst⟩ := sign_cons (p := s.platform) t.secret
      (Auth.payload user iat (iat + lifetime))
    obtain rfl := eq_of_bearerToken (htext.trans hsign) hfirst hbearer
    obtain ⟨found, hfound, -⟩ := Option.map_eq_some_iff.mp hverify
    have hmatch := List.find?_some hfound
    simp only [decide_eq_true_eq] at hmatch
    have hexp := exp_eq hsigns (List.mem_of_find?_eq_some hfound) ht (hmatch.1.trans hcall)
    exact hexp ▸ hmatch.2.2
  · intro hnow
    have hchars : ∀ c ∈ call.token, Ledger.isWhiteSpace c = false ∧
        Notifications.isLineTerminator c = false := by
      intro c hc
      rw [htext] at hc
      exact Notifications.token_char (Notifications.mem_alphabet_of_mem_sign hmac hc)
    have hne : call.token ≠ [] := by
      rw [htext]
      exact List.append_ne_nil_of_right_ne_nil _ (List.cons_ne_nil _ _)
    have hbearer : Notifications.bearerToken ("Bearer".toList ++ ([' '] ++ call.token)) =
        some call.token :=
      Notifications.bearerToken_header (by decide) (by decide) (List.all_eq_true.mp rfl) hne hchars
    have hverify := (Auth.run_inv s.platform (log.entries.map Prod.snd)).verify ht hnow
    rw [← hcall] at hverify
    have hprincipal : (JsonWebToken.payloadOf call.token).bind principalOf =
        some ⟨user.id, user.email, String.ofList user.role.toText⟩ := by
      rw [htext]
      exact principal_sign t.secret user iat lifetime
    have hsub : user.id = t.sub := by rw [heq]; rfl
    rw [hsecret]
    unfold Auth.Platform.secret at haccess
    split at haccess
    · next c value henv =>
      rw [← Except.ok.inj haccess] at hverify
      rw [henv]
      exact ⟨_, canActivate_of_verify hbearer hne hverify hprincipal, hsub⟩
    · exact absurd haccess (by simp)

variable [DecidableEq β] {w : Web β}

/-- The middleware has no secret and reads the token as a binary string, and still it lets a page
through exactly if the gateway accepts the calls of the page in the next five seconds. -/
theorem middleware_agrees
    (hmac : ∀ secret text, ∀ c ∈ s.platform.mac secret text, c ∈ Base64Url.alphabet)
    (hsecret : s.secret = s.platform.env .JWT_ACCESS_SECRET) (h : Reached s w) {b : β}
    {token : List Char} (htoken : (w.cookies b).accessToken = some token) (now : ℕ) :
    isExpired now token = false ↔
      ∀ later ≤ now + 5000, ∀ call : BffCall, call.token = token →
        ∃ principal, canActivate s.secret (w.log.auth s.platform) (later / 1000)
            (some call.authorization) = .ok principal ∧
          SignedIn s.platform w.log b principal.userId := by
  obtain ⟨userId, hcookies⟩ := h.ok.cookies b
  obtain ⟨hsignedIn, t, ht, rfl, rfl, haccess⟩ := hcookies.access token htoken
  obtain ⟨user, iat, lifetime, heq⟩ := run_signs s.platform (w.log.entries.map Prod.snd) t ht
  have hexpired : isExpired now t.text = decide (t.exp * 1000 ≤ now + 5000) := by
    rw [heq]
    exact isExpired_sign s.platform t.secret user iat lifetime now
  rw [hexpired, decide_eq_false_iff_not]
  constructor
  · intro hlive later hlater call hcall
    have hnow : later / 1000 < t.exp := by omega
    obtain ⟨principal, hok, huser⟩ := (canActivate_iff hmac hsecret ht haccess hcall _).mpr hnow
    exact ⟨principal, hok, huser ▸ hsignedIn⟩
  · intro haccepted
    obtain ⟨principal, hok, -⟩ := haccepted (now + 5000) le_rfl
      { method := .get, path := [], token := t.text, contentType := [], idempotencyKey := none,
        body := none } rfl
    have huser := userId_of_canActivate (run_signs s.platform _) ⟨t, ht, rfl, rfl, haccess⟩ hok
    have hnow := (canActivate_iff hmac hsecret ht haccess rfl _).mp ⟨principal, hok, huser⟩
    omega

/-- Ann's pages are let through and accepted. -/
theorem middleware_agrees_ann : isExpired 0 annsPair.accessToken = false ∧
    ∃ principal, canActivate annsSite.secret (annsRegistered.log.auth annsSite.platform) (5000 / 1000)
        (some (annsRead.call annsPair.accessToken).authorization) = .ok principal ∧
      SignedIn annsSite.platform annsRegistered.log () principal.userId := by
  have hmac : ∀ secret text, ∀ c ∈ annsSite.platform.mac secret text, c ∈ Base64Url.alphabet :=
    fun _ _ _ => Base64Url.mem_alphabet_of_mem_encode
  have hlive : isExpired 0 annsPair.accessToken = false := by
    rw [annsPair, isExpired_sign]
    decide
  exact ⟨hlive, (middleware_agrees hmac rfl reached_annsRegistered rfl 0).mp hlive 5000 (by decide)
    (annsRead.call annsPair.accessToken) rfl⟩

end Sessions

end PeerLedger
