import PeerLedger.Sessions.Browsers

/-!
# What the handlers present and set

A handler of a request whose cookies were issued to a user presents only tokens of that user to the
gateway, calls only what the request allows, and sets only tokens that were issued to a user who has
signed in at the browser (`handle_meets`).
-/

namespace PeerLedger

namespace Sessions

open Formats Dialogues

variable {β : Type} {s : Setting} {p : Auth.Platform} {b : β} {userId : String} {log log' : Log β}
  {request : Request}

/-! ### The rules -/

/-- The pair was issued to a user who has signed in at the browser. -/
def PairAt (p : Auth.Platform) (b : β) (log : Log β) (userId : String) (pair : Auth.TokenPair) :
    Prop :=
  IssuedTo p b userId .JWT_ACCESS_SECRET log pair.accessToken ∧
    IssuedTo p b userId .JWT_REFRESH_SECRET log pair.refreshToken

/-- A handler of a request of the browser presents tokens of the user, and is given such tokens for
them. -/
def rules (s : Setting) (b : β) (userId : String) (request : Request) :
    Rules (W := Log β) GatewayCall GatewayCall.Answer where
  asks log
    | .auth (.refresh token) => IssuedTo s.platform b userId .JWT_REFRESH_SECRET log token
    | .auth _ => True
    | .bff call => IssuedTo s.platform b userId .JWT_ACCESS_SECRET log call.token ∧
        request.Allows s.env call
  answers log
    | .auth (.refresh _), answer => ∀ pair, answer = some (.ok pair) →
        PairAt s.platform b log userId pair
    | .auth _, answer => ∀ pair, answer = some (.ok pair) →
        ∃ userId', PairAt s.platform b log userId' pair
    | .bff _, _ => True
  asks_mono {log log' q} hle h := by
    rcases q with (dto | dto | token) | call
    · trivial
    · trivial
    · exact h.mono hle
    · exact ⟨h.1.mono hle, h.2⟩

/-- The tokens that a response sets were issued to a user who has signed in at the browser. -/
def Sets (p : Auth.Platform) (b : β) (log : Log β) (r : Except FrontendError Response) : Prop :=
  ∀ response pair, r = .ok response → response.cookies = .tokens pair →
    ∃ userId, PairAt p b log userId pair

/-- A pair that was issued stays so. -/
lemma PairAt.mono {pair : Auth.TokenPair} (h : PairAt p b log userId pair) (hle : log ≤ log') :
    PairAt p b log' userId pair := ⟨h.1.mono hle, h.2.mono hle⟩

/-- A response without new tokens sets none. -/
lemma sets_of_ne {response : Response} (h : ∀ pair, response.cookies ≠ .tokens pair) :
    Sets p b log (.ok response) := by
  intro response' pair hresponse hpair
  obtain rfl := Except.ok.inj hresponse
  exact absurd hpair (h pair)

/-- A handler that throws sets no tokens. -/
lemma sets_error {e : FrontendError} : Sets p b log (.error e) :=
  fun _ _ h _ => absurd h (by simp)

/-- A response sets the tokens that were issued. -/
lemma sets_tokens {response : Response} {pair : Auth.TokenPair}
    (h : PairAt p b log userId pair) (hresponse : response.cookies = .tokens pair) :
    Sets p b log (.ok response) := by
  intro response' pair' heq hpair
  obtain rfl := Except.ok.inj heq
  rw [hresponse] at hpair
  obtain rfl := SetCookie.tokens.inj hpair
  exact ⟨userId, h⟩

/-! ### Handlers under any rules -/

section AnyRules

variable {R : Rules (W := Log β) GatewayCall GatewayCall.Answer}

/-- An auth route answers by the rules. -/
lemma fetchAuth_meets {operation : Auth.Operation} (h : R.asks log (.auth operation)) :
    (fetchAuth operation).Meets R
      (fun log r => R.answers log (.auth operation) r.toOption) log := by
  refine Dialogue.meets_ask.mpr ⟨h, fun log' _ answer hanswer => ?_⟩
  rcases answer with _ | response <;> exact hanswer

/-- A call of the gateway is allowed by the rules. -/
lemma fetchBff_meets {call : BffCall} (h : R.asks log (.bff call)) :
    (fetchBff call).Meets R (fun _ _ => True) log := by
  refine Dialogue.meets_ask.mpr ⟨h, fun log' _ answer _ => ?_⟩
  rcases answer with _ | upstream <;> trivial

/-- The gateway may be called with the access token of the cookies. -/
def Calls (R : Rules (W := Log β) GatewayCall GatewayCall.Answer) (cookies : Cookies)
    (method : Method) (log : Log β) : Prop :=
  ∀ call : BffCall, cookies.accessToken = some call.token → call.method = method →
    R.asks log (.bff call)

/-- What the gateway may be called with stays allowed. -/
lemma Calls.mono {cookies : Cookies} {method : Method} (h : Calls R cookies method log)
    (hle : log ≤ log') : Calls R cookies method log' :=
  fun call htoken hmethod => R.asks_mono hle (h call htoken hmethod)

/-- The response leaves the cookies as they are. -/
def Leaves (_ : Log β) (r : Except FrontendError Response) : Prop :=
  ∀ response, r = .ok response → response.cookies = .keep

/-- A response that keeps the cookies leaves them as they are. -/
lemma leaves_ok {response : Response} (h : response.cookies = .keep) :
    Leaves log (.ok response) := fun _ heq => Except.ok.inj heq ▸ h

/-- A handler that throws leaves the cookies as they are. -/
lemma leaves_error {e : FrontendError} : Leaves log (.error e) :=
  fun _ heq => absurd heq (by simp)

/-- A response that leaves the cookies sets no tokens. -/
lemma Leaves.sets {r : Except FrontendError Response} (h : Leaves log r) : Sets p b log r := by
  intro response pair hr hpair
  rw [h response hr] at hpair
  exact absurd hpair (by simp)

/-- `bffFetch` calls the gateway with the access token of the cookies only. -/
lemma bffFetch_meets {cookies : Cookies} {method : Method} (h : Calls R cookies method log)
    (path : List Char) (body : Option (List Char)) :
    (bffFetch cookies method path body).Meets R (fun _ _ => True) log := by
  unfold bffFetch
  split
  · trivial
  · trivial
  · next token _ htoken =>
    refine (fetchBff_meets (h _ htoken rfl)).bind (fun log₁ _ upstream _ => ?_)
      fun _ _ _ _ => trivial
    split <;> trivial

/-- So do all calls of a page. -/
lemma bffFetchAll_meets {cookies : Cookies} (h : Calls R cookies .get log)
    (paths : List (List Char)) :
    (bffFetchAll cookies paths).Meets R (fun _ _ => True) log := by
  induction paths generalizing log with
  | nil => trivial
  | cons path paths ih =>
    refine (bffFetch_meets h path none).bind (fun log₁ hle₁ text _ => ?_) fun _ _ _ _ => trivial
    exact (ih (h.mono hle₁)).bind (fun _ _ _ _ => trivial) fun _ _ _ _ => trivial

/-- A page sets no cookies. -/
lemma render_meets {cookies : Cookies} (h : Calls R cookies .get log) (page : Page) :
    (render cookies page).Meets R Leaves log := by
  have hlayout : (rootLayout cookies).Meets R (fun _ _ => True) log := by
    refine Dialogue.Meets.orElse ?_ fun _ _ _ _ => trivial
    exact (bffFetch_meets h _ none).bind (fun _ _ _ _ => trivial) fun _ _ _ _ => trivial
  unfold render
  refine hlayout.bind (fun log₁ hle₁ principal _ => ?_) fun _ _ _ _ => leaves_error
  refine Dialogue.Meets.orElse ?_ fun log₂ _ e _ => ?_
  · refine (bffFetchAll_meets (h.mono hle₁) page.reads).bind (fun log₂ _ data _ => ?_)
      fun _ _ _ _ => leaves_error
    exact leaves_ok rfl
  · split
    · exact leaves_ok rfl
    · split
      · exact leaves_ok rfl
      · exact leaves_error
    · exact leaves_error

/-- The action that creates a split bill sets no cookies. -/
lemma createSplitBill_meets {cookies : Cookies} (h : Calls R cookies .post log)
    (input : List Char) : (createSplitBill cookies input).Meets R Leaves log := by
  refine (bffFetch_meets h _ (some input)).bind (fun log₁ _ bill _ => ?_)
    fun _ _ _ _ => leaves_error
  exact leaves_ok rfl

/-- A request to sign in sets the tokens of its answer, if there are any. -/
lemma signIn_meets {operation : Auth.Operation} (h : R.asks log (.auth operation))
    (failure : ℕ) (origin : RequestOrigin) :
    (signIn s.env operation failure origin).Meets R
      (fun log r => ∀ response, r = .ok response → response.cookies = .keep ∨
        ∃ pair, response.cookies = .tokens pair ∧
          R.answers log (.auth operation) (some (.ok pair))) log := by
  unfold signIn
  split
  · intro response hr
    obtain rfl := Except.ok.inj hr
    exact .inl rfl
  · have htokens : (gatewayAuthFetch operation).Meets R
        (fun log r => ∀ pair, r = .ok pair → R.answers log (.auth operation) (some (.ok pair)))
        log := by
      refine (fetchAuth_meets h).bind (fun log₁ _ answer hanswer => ?_)
        fun _ _ _ _ pair hpair => absurd hpair (by simp)
      rcases answer with refusal | pair
      · exact fun pair hpair => absurd hpair (by simp)
      · intro pair' hpair
        obtain rfl := Except.ok.inj hpair
        exact hanswer
    refine Dialogue.Meets.orElse ?_ fun log₁ _ e _ => ?_
    · refine htokens.bind (fun log₁ _ pair hpair => ?_)
        fun _ _ _ _ response hr => absurd hr (by simp)
      intro response hr
      obtain rfl := Except.ok.inj hr
      exact .inr ⟨pair, rfl, hpair pair rfl⟩
    · intro response hr
      obtain rfl := Except.ok.inj hr
      exact .inl rfl

end AnyRules

/-! ### The handlers -/

/-- Tokens of the user are refreshed to tokens of the user. -/
lemma refreshTokens_meets {refreshToken : Option (List Char)}
    (h : ∀ token, refreshToken = some token →
      IssuedTo s.platform b userId .JWT_REFRESH_SECRET log token) :
    (refreshTokens refreshToken).Meets (rules s b userId request)
      (fun log r => ∀ pair, r = .ok (some pair) → PairAt s.platform b log userId pair) log := by
  unfold refreshTokens
  split
  · exact fun pair hpair => absurd hpair (by simp)
  · exact fun pair hpair => absurd hpair (by simp)
  · next token _ =>
    refine (fetchAuth_meets (h token rfl)).bind (fun log' _ response hresponse => ?_)
      fun _ _ _ _ pair hpair => absurd hpair (by simp)
    rcases response with refusal | pair
    · exact fun pair hpair => absurd hpair (by simp)
    · intro pair' hpair
      obtain rfl := Option.some.inj (Except.ok.inj hpair)
      exact hresponse pair rfl

/-- The response of the proxy sets the tokens that were refreshed. -/
lemma sets_proxied (userId : String) {upstream : Upstream} {refreshed : Option Auth.TokenPair}
    (h : ∀ pair, refreshed = some pair → PairAt s.platform b log userId pair) :
    Sets s.platform b log (.ok (proxied upstream refreshed)) := by
  rcases refreshed with _ | pair
  · refine sets_of_ne fun pair => ?_
    unfold proxied
    dsimp only
    split <;> simp
  · exact sets_tokens (h pair rfl) rfl

/-- A call is forwarded with a token of the user, and once more with a refreshed one. -/
lemma forward_meets {cookies : Cookies} {bffRequest : BffRequest} {accessToken : List Char}
    {refreshed : Option Auth.TokenPair} (hcookies : CookiesOf s.platform b userId log cookies)
    (haccess : IssuedTo s.platform b userId .JWT_ACCESS_SECRET log accessToken)
    (hallows : ∀ token, request.Allows s.env (bffRequest.call token))
    (hrefreshed : ∀ pair, refreshed = some pair → PairAt s.platform b log userId pair) :
    (forward cookies bffRequest accessToken refreshed).Meets (rules s b userId request)
      (Sets s.platform b) log := by
  have hasks : (rules s b userId request).asks log (.bff (bffRequest.call accessToken)) :=
    ⟨haccess, hallows accessToken⟩
  unfold forward
  refine (fetchBff_meets hasks).bind (fun log₁ hle₁ upstream _ => ?_)
    fun _ _ _ _ => sets_error
  split
  · refine (refreshTokens_meets (hcookies.mono hle₁).refresh).bind
      (fun log₂ hle₂ pair hpair => ?_) fun _ _ _ _ => sets_error
    rcases pair with _ | pair
    · exact sets_proxied userId fun _ h => absurd h (by simp)
    · have hown := hpair pair rfl
      have hagain : (rules s b userId request).asks log₂
          (.bff (bffRequest.call pair.accessToken)) := ⟨hown.1, hallows pair.accessToken⟩
      refine (fetchBff_meets hagain).bind (fun log₃ hle₃ upstream' _ => ?_)
        fun _ _ _ _ => sets_error
      refine sets_proxied userId fun pair' h => ?_
      obtain rfl := Option.some.inj h
      exact hown.mono hle₃
  · exact sets_proxied userId fun pair h => (hrefreshed pair h).mono hle₁

/-- The proxy forwards what the request allows, and sets tokens of its user only. -/
lemma proxyBffRequest_meets {cookies : Cookies} {bffRequest : BffRequest}
    (hcookies : CookiesOf s.platform b userId log cookies) :
    (proxyBffRequest s.env cookies bffRequest).Meets (rules s b userId (.bff bffRequest))
      (Sets s.platform b) log := by
  unfold proxyBffRequest
  split
  · exact sets_of_ne fun pair => by simp [Response.json]
  · next htrusted =>
    have hallows : ∀ token, (Request.bff bffRequest).Allows s.env (bffRequest.call token) := by
      intro token
      refine ⟨rfl, ?_⟩
      by_contra hnone
      rw [not_or, not_or] at hnone
      exact htrusted ⟨hnone.1, hnone.2.1, Bool.eq_false_iff.mpr hnone.2.2⟩
    have hrenew : ∀ {k : Option Auth.TokenPair → Handler Response},
        (∀ log, (k none).Meets (rules s b userId (.bff bffRequest)) (Sets s.platform b) log) →
        (∀ pair, k (some pair) = forward cookies bffRequest pair.accessToken (some pair)) →
        ((refreshTokens cookies.refreshToken).bind k).Meets (rules s b userId (.bff bffRequest))
          (Sets s.platform b) log := by
      intro k hnone hsome
      refine (refreshTokens_meets hcookies.refresh).bind (fun log₁ hle₁ pair hpair => ?_)
        fun _ _ _ _ => sets_error
      rcases pair with _ | pair
      · exact hnone log₁
      · rw [hsome]
        refine forward_meets (hcookies.mono hle₁) (hpair pair rfl).1 hallows fun pair' h => ?_
        obtain rfl := Option.some.inj h
        exact hpair pair rfl
    split
    · exact hrenew (fun _ => sets_of_ne fun pair => by simp [Response.json]) fun _ => rfl
    · exact hrenew (fun _ => sets_of_ne fun pair => by simp [Response.json]) fun _ => rfl
    · next accessToken _ haccess =>
      exact forward_meets hcookies (hcookies.access accessToken haccess) hallows
        fun pair h => absurd h (by simp)

/-- Signing out deletes the tokens. -/
lemma logout_meets (origin : RequestOrigin) :
    (logout s.env origin).Meets (rules s b userId request) (Sets s.platform b) log := by
  unfold logout
  split
  · exact sets_of_ne fun pair => by simp [Response.json]
  · exact sets_of_ne fun pair => by simp

/-- The way to the login page sets no tokens. -/
lemma sets_loginRedirect (segments : List (List Char)) (clear : Bool) :
    Sets s.platform b log (.ok (loginRedirect segments clear)) := by
  refine sets_of_ne fun pair => ?_
  cases clear <;> simp [loginRedirect, Response.redirectTo]

/-- The middleware refreshes tokens of the user, or lets the page be shown. -/
lemma middleware_meets {cookies : Cookies} (hcookies : CookiesOf s.platform b userId log cookies)
    (now : ℕ) (segments : List (List Char)) {next : Handler Response}
    (hnext : next.Meets (rules s b userId request) (Sets s.platform b) log) :
    (middleware now cookies segments next).Meets (rules s b userId request)
      (Sets s.platform b) log := by
  have hrenew : (renew cookies.refreshToken segments).Meets (rules s b userId request)
      (Sets s.platform b) log := by
    unfold renew
    split
    · exact sets_loginRedirect segments false
    · exact sets_loginRedirect segments false
    · next token _ htoken =>
      refine Dialogue.Meets.orElse ?_
        fun _ _ _ _ => sets_loginRedirect segments true
      refine (fetchAuth_meets (hcookies.refresh token htoken)).bind
        (fun log₁ _ response hresponse => ?_) fun _ _ _ _ => sets_error
      rcases response with refusal | pair
      · exact sets_loginRedirect segments true
      · exact sets_tokens (hresponse pair rfl) rfl
  unfold middleware
  split
  · exact hrenew
  · exact hrenew
  · split
    · exact hrenew
    · exact hnext

/-- The calls with the cookies of the user that a request allows may be made. -/
lemma calls_of_cookiesOf {cookies : Cookies} {method : Method}
    (hcookies : CookiesOf s.platform b userId log cookies)
    (hallows : ∀ call : BffCall, call.method = method → request.Allows s.env call) :
    Calls (rules s b userId request) cookies method log :=
  fun call htoken hmethod => ⟨hcookies.access call.token htoken, hallows call hmethod⟩

/-- Credentials that are accepted set tokens of the user whom they sign in. -/
lemma credentials_meets (operation : Auth.Operation) (hoperation : IsCredentials operation)
    (failure : ℕ) (origin : RequestOrigin) :
    (signIn s.env operation failure origin).Meets (rules s b userId request)
      (Sets s.platform b) log := by
  have hasks : (rules s b userId request).asks log (.auth operation) := by
    rcases operation with dto | dto | token
    · trivial
    · trivial
    · exact absurd hoperation id
  refine (signIn_meets hasks failure origin).imp fun log' r hr response pair heq hpair => ?_
  rcases hr response heq with hkeep | ⟨pair', hpair', hanswer⟩
  · exact absurd (hkeep.symm.trans hpair) (by simp)
  · obtain rfl := SetCookie.tokens.inj (hpair'.symm.trans hpair)
    rcases operation with dto | dto | token
    · exact hanswer pair' rfl
    · exact hanswer pair' rfl
    · exact absurd hoperation id

/-- A handler acts for the user to whom the cookies were issued. -/
lemma handle_meets {cookies : Cookies} (hcookies : CookiesOf s.platform b userId log cookies)
    (now : ℕ) (request : Request) :
    (handle s.env now cookies request).Meets (rules s b userId request)
      (Sets s.platform b) log := by
  rcases request with bffRequest | page | input | ⟨dto, origin⟩ | ⟨dto, origin⟩ | origin
  · exact proxyBffRequest_meets hcookies
  · have hcalls : Calls (rules s b userId (.page page)) cookies .get log :=
      calls_of_cookiesOf hcookies fun call h => h
    have hrender : (render cookies page).Meets (rules s b userId (.page page))
        (Sets s.platform b) log := (render_meets hcalls page).imp fun _ _ => Leaves.sets
    by_cases hmatched : page.segments.head? ∈ matcher.map some
    · rw [handle, if_pos hmatched]
      exact middleware_meets hcookies now _ hrender
    · rw [handle, if_neg hmatched]
      exact hrender
  · have hcalls : Calls (rules s b userId (.createSplitBill input)) cookies .post log :=
      calls_of_cookiesOf hcookies fun call h => h
    exact middleware_meets hcookies now _
      ((createSplitBill_meets hcalls input).imp fun _ _ => Leaves.sets)
  · exact credentials_meets (.login dto) trivial 401 origin
  · exact credentials_meets (.register dto) trivial 400 origin
  · exact logout_meets origin

end Sessions

end PeerLedger
