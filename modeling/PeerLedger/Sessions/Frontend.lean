import PeerLedger.Dialogues.Dialogue
import PeerLedger.Formats.BinaryString
import PeerLedger.Formats.JsonNumbers
import PeerLedger.Formats.PercentEncoding
import PeerLedger.Ledger.Auth

/-!
# The frontend server

The browser keeps the tokens of its session in two cookies that scripts cannot read.  The server of
the frontend reads them from every request, asks the gateway on behalf of the browser, refreshes the
tokens when the gateway does not accept the access token any more, and sets the cookies in its
response.

A handler is a `Dialogue` with the gateway.  `fetch` either rejects or returns a response; the
response of an auth route is a pair of tokens or a refusal.
-/

namespace PeerLedger

namespace Sessions

open Formats Dialogues

/-! ### What the frontend asks the gateway -/

inductive Method where
  | get
  | head
  | post
  deriving DecidableEq

/-- A request to `/bff` with a bearer token; the path includes the query. -/
structure BffCall where
  method : Method
  path : List Char
  token : List Char
  contentType : List Char
  idempotencyKey : Option (List Char)
  body : Option (List Char)

/-- The header `Authorization` of a call. -/
def BffCall.authorization (call : BffCall) : List Char := "Bearer ".toList ++ call.token

inductive GatewayCall where
  | auth (operation : Auth.Operation)
  | bff (call : BffCall)

/-- A response of an auth route that is not ok. -/
structure Refusal where
  status : ℕ
  body : List Char

/-- A response of `/bff`. -/
structure Upstream where
  status : ℕ
  contentType : Option (List Char)
  body : List Char

/-- The response to a call; `none` if `fetch` rejects. -/
def GatewayCall.Answer : GatewayCall → Type
  | .auth _ => Option (Except Refusal Auth.TokenPair)
  | .bff _ => Option Upstream

inductive FrontendError where
  | network
  | bff (status : ℕ) (message : List Char)

abbrev Handler : Type → Type := Dialogue GatewayCall GatewayCall.Answer FrontendError

/-- `fetch` of an auth route. -/
def fetchAuth (operation : Auth.Operation) : Handler (Except Refusal Auth.TokenPair) :=
  .ask (.auth operation) fun
    | none => throw .network
    | some response => pure response

/-- `fetch` of a route of `/bff`. -/
def fetchBff (call : BffCall) : Handler Upstream :=
  .ask (.bff call) fun
    | none => throw .network
    | some upstream => pure upstream

/-! ### What the frontend answers -/

/-- The cookies of a browser. -/
structure Cookies where
  accessToken : Option (List Char)
  refreshToken : Option (List Char)
  deriving DecidableEq

/-- What a response does to the cookies: `setTokenCookies` and `clearTokenCookies`. -/
inductive SetCookie where
  | keep
  | tokens (pair : Auth.TokenPair)
  | clear
  deriving DecidableEq

/-- The cookies after a response. -/
def SetCookie.apply : SetCookie → Cookies → Cookies
  | .keep, cookies => cookies
  | .tokens pair, _ => ⟨some pair.accessToken, some pair.refreshToken⟩
  | .clear, _ => ⟨none, none⟩

inductive Redirect where
  /-- To `/login`, with the path to return to. -/
  | login (next : Option (List Char))
  /-- To the URL that was requested. -/
  | same

inductive Body where
  | text (text : List Char)
  /-- A page: who is signed in, and what the page shows. -/
  | page (principal : Option (List Char)) (data : List (List Char))
  | empty

structure Response where
  status : ℕ
  contentType : Option (List Char)
  body : Body
  redirect : Option Redirect
  cookies : SetCookie

/-- `NextResponse.json` of an object with one member. -/
def Response.json (status : ℕ) (key : List Char) (value : JsonText.Value) : Response where
  status := status
  contentType := some "application/json".toList
  body := .text (JsonText.stringify (.object [(key, value)]))
  redirect := none
  cookies := .keep

def Response.redirectTo (redirect : Redirect) (cookies : SetCookie) : Response where
  status := 307
  contentType := none
  body := .empty
  redirect := some redirect
  cookies := cookies

/-- The response of the server to an exception. -/
def Response.internalError : Response where
  status := 500
  contentType := none
  body := .empty
  redirect := none
  cookies := .keep

/-! ### Origins -/

/-- The environment; `originOf` is `new URL(text).origin`, or nothing for an exception. -/
structure Environment where
  frontendOrigin : Option (List Char)
  originOf : List Char → Option (List Char)

/-- The header `Origin` of a request, and the origin of the URL that was requested. -/
structure RequestOrigin where
  header : Option (List Char)
  nextUrl : List Char

def isTrustedMutationOrigin (env : Environment) (origin : RequestOrigin) : Bool :=
  match origin.header with
  | none | some [] => true
  | some header =>
    match env.originOf header, env.originOf (env.frontendOrigin.getD origin.nextUrl) with
    | some actual, some expected => actual = expected
    | _, _ => false

/-! ### The proxy -/

/-- A request to `/api/bff`. -/
structure BffRequest where
  method : Method
  origin : RequestOrigin
  segments : List (List Char)
  search : List Char
  contentType : Option (List Char)
  idempotencyKey : Option (List Char)
  text : List Char

/-- What the proxy asks the gateway. -/
def BffRequest.call (request : BffRequest) (token : List Char) : BffCall where
  method := request.method
  path := '/' :: ['/'].intercalate (request.segments.map PercentEncoding.encode) ++ request.search
  token := token
  contentType := request.contentType.getD "application/json".toList
  idempotencyKey := request.idempotencyKey
  body := if request.method = .get ∨ request.method = .head then none else some request.text

def refreshTokens (refreshToken : Option (List Char)) : Handler (Option Auth.TokenPair) :=
  match refreshToken with
  | none | some [] => pure none
  | some token => do
    match ← fetchAuth (.refresh token) with
    | .error _ => return none
    | .ok pair => return some pair

/-- The response of the proxy. -/
def proxied (upstream : Upstream) (refreshed : Option Auth.TokenPair) : Response where
  status := upstream.status
  contentType := some (upstream.contentType.getD "application/json".toList)
  body := .text upstream.body
  redirect := none
  cookies :=
    match refreshed with
    | some pair => .tokens pair
    | none => if upstream.status = 401 then .clear else .keep

/-- The proxy from its first call on. -/
def forward (cookies : Cookies) (request : BffRequest) (accessToken : List Char)
    (refreshed : Option Auth.TokenPair) : Handler Response := do
  let upstream ← fetchBff (request.call accessToken)
  if upstream.status = 401 then
    match ← refreshTokens cookies.refreshToken with
    | none => return proxied upstream none
    | some pair =>
      let upstream ← fetchBff (request.call pair.accessToken)
      return proxied upstream (some pair)
  else return proxied upstream refreshed

def proxyBffRequest (env : Environment) (cookies : Cookies) (request : BffRequest) :
    Handler Response :=
  if request.method ≠ .get ∧ request.method ≠ .head ∧
      isTrustedMutationOrigin env request.origin = false then
    pure (.json 403 "message".toList (.string "Untrusted request origin".toList))
  else
    match cookies.accessToken with
    | none | some [] => do
      match ← refreshTokens cookies.refreshToken with
      | none => return .json 401 "message".toList (.string "Unauthorized".toList)
      | some pair => forward cookies request pair.accessToken (some pair)
    | some accessToken => forward cookies request accessToken none

/-! ### Signing in and out -/

/-- `String(value)`; a number is written as its literal. -/
def textOf : JsonText.Value → List Char
  | .null => "null".toList
  | .bool b => (toString b).toList
  | .number literal => literal
  | .string text => text
  | .array elements => [','].intercalate (elements.map fun
    | .string text => text
    | .null => []
    | other => JsonText.stringify other)
  | .object _ => "[object Object]".toList

/-- The message of the error about a response that is not ok. -/
def errorMessage (status : ℕ) (body : List Char) : List Char :=
  let payload :=
    if body = [] then .null
    else (JsonText.parse body).getD (.object [("message".toList, .string body)])
  match payload.member "message".toList with
  | some message => textOf message
  | none => "BFF returned HTTP ".toList ++ (toString status).toList

def FrontendError.message : FrontendError → List Char
  | .network => "fetch failed".toList
  | .bff _ message => message

def gatewayAuthFetch (operation : Auth.Operation) : Handler Auth.TokenPair := do
  match ← fetchAuth operation with
  | .error refusal => throw (.bff refusal.status (errorMessage refusal.status refusal.body))
  | .ok pair => return pair

/-- The routes of login and of registration; they differ in the status of a failure. -/
def signIn (env : Environment) (operation : Auth.Operation) (failure : ℕ)
    (origin : RequestOrigin) : Handler Response :=
  if isTrustedMutationOrigin env origin = false then
    pure (.json 403 "error".toList (.string "Untrusted request origin".toList))
  else
    tryCatch
      (do
        let tokens ← gatewayAuthFetch operation
        return { Response.json 200 "ok".toList (.bool true) with cookies := .tokens tokens })
      fun err => pure (.json failure "error".toList (.string err.message))

def login (env : Environment) (dto : Auth.Credentials) (origin : RequestOrigin) :
    Handler Response := signIn env (.login dto) 401 origin

def register (env : Environment) (dto : Auth.Credentials) (origin : RequestOrigin) :
    Handler Response := signIn env (.register dto) 400 origin

def logout (env : Environment) (origin : RequestOrigin) : Handler Response :=
  if isTrustedMutationOrigin env origin = false then
    pure (.json 403 "error".toList (.string "Untrusted request origin".toList))
  else pure { Response.json 200 "ok".toList (.bool true) with cookies := .clear }

/-! ### Pages -/

inductive Page where
  | login
  | register
  | wallets
  | activity
  | admin
  | splitBills
  | splitBill (id : List Char)
  | newTransfer
  deriving DecidableEq

/-- The segments of the path of a page. -/
def Page.segments : Page → List (List Char)
  | .login => ["login".toList]
  | .register => ["register".toList]
  | .wallets => ["wallets".toList]
  | .activity => ["activity".toList]
  | .admin => ["admin".toList]
  | .splitBills => ["split-bills".toList]
  | .splitBill id => ["split-bills".toList, id]
  | .newTransfer => ["transfers".toList, "new".toList]

def pathname (segments : List (List Char)) : List Char := '/' :: ['/'].intercalate segments

/-- The matcher of the middleware. -/
def matcher : List (List Char) :=
  ["wallets", "transfers", "split-bills", "activity", "admin"].map String.toList

/-- What a page reads from the gateway. -/
def Page.reads : Page → List (List Char)
  | .login | .register => []
  | .wallets => ["/dashboard".toList]
  | .activity => ["/activity?limit=20".toList]
  | .admin => ["/admin/access".toList]
  | .splitBills => ["/split-bills".toList]
  | .splitBill id => ["/split-bills/".toList ++ id, "/wallets".toList, "/me".toList]
  | .newTransfer => ["/wallets".toList]

def bffFetch (cookies : Cookies) (method : Method) (path : List Char)
    (body : Option (List Char)) : Handler (List Char) :=
  match cookies.accessToken with
  | none | some [] => throw (.bff 401 "Authentication required".toList)
  | some token => do
    let upstream ← fetchBff { method, path, token, contentType := "application/json".toList,
                              idempotencyKey := none, body }
    if 200 ≤ upstream.status ∧ upstream.status < 300 then return upstream.body
    else throw (.bff upstream.status (errorMessage upstream.status upstream.body))

/-- The reads of a page, one after the other. -/
def bffFetchAll (cookies : Cookies) : List (List Char) → Handler (List (List Char))
  | [] => pure []
  | path :: paths => do
    let text ← bffFetch cookies .get path none
    let texts ← bffFetchAll cookies paths
    return text :: texts

/-- `RootLayout`: who is signed in, for all that is known. -/
def rootLayout (cookies : Cookies) : Handler (Option (List Char)) :=
  tryCatch (do let principal ← bffFetch cookies .get "/me".toList none
               return some principal)
    fun _ => pure none

def Response.page (principal : Option (List Char)) (data : List (List Char)) : Response where
  status := 200
  contentType := some "text/html".toList
  body := .page principal data
  redirect := none
  cookies := .keep

def render (cookies : Cookies) (page : Page) : Handler Response := do
  let principal ← rootLayout cookies
  tryCatch
    (do
      let data ← bffFetchAll cookies page.reads
      return .page principal data)
    fun
      | .bff 401 _ => pure (.redirectTo (.login none) .keep)
      | .bff 403 message =>
        -- the page tells the user that the role of an administrator is required
        if page = .admin then pure (.page principal []) else throw (.bff 403 message)
      | err => throw err

/-- The server action. -/
def createSplitBill (cookies : Cookies) (input : List Char) : Handler Response := do
  let bill ← bffFetch cookies .post "/split-bills".toList (some input)
  return { status := 200, contentType := none, body := .text bill, redirect := none, cookies := .keep }

/-! ### The middleware -/

/-- At a millisecond; `atob` makes a binary string of the payload. -/
def isExpired (now : ℕ) (token : List Char) : Bool :=
  match token.splitOn '.' with
  | _ :: encoded :: _ =>
    match (BinaryString.atob (encoded.map BinaryString.plain)).bind JsonText.parse with
    | some payload =>
      match payload.member "exp".toList with
      | some (.number literal) => JsonText.readLiteral literal * 1000 ≤ now + 5000
      | _ => true
    | none => true
  | _ => true

def loginRedirect (segments : List (List Char)) (clear : Bool) : Response :=
  .redirectTo (.login (some (pathname segments))) (if clear then .clear else .keep)

/-- The middleware without a valid access token. -/
def renew (refreshToken : Option (List Char)) (segments : List (List Char)) : Handler Response :=
  match refreshToken with
  | none | some [] => pure (loginRedirect segments false)
  | some token =>
    tryCatch
      (do
        match ← fetchAuth (.refresh token) with
        | .error _ => return loginRedirect segments true
        | .ok tokens => return .redirectTo .same (.tokens tokens))
      fun _ => pure (loginRedirect segments true)

/-- `next` is what follows when the request passes. -/
def middleware (now : ℕ) (cookies : Cookies) (segments : List (List Char))
    (next : Handler Response) : Handler Response :=
  match cookies.accessToken with
  | none | some [] => renew cookies.refreshToken segments
  | some accessToken =>
    if isExpired now accessToken then renew cookies.refreshToken segments else next

/-! ### Requests of browsers -/

inductive Request where
  | bff (request : BffRequest)
  | page (page : Page)
  | createSplitBill (input : List Char)
  | login (dto : Auth.Credentials) (origin : RequestOrigin)
  | register (dto : Auth.Credentials) (origin : RequestOrigin)
  | logout (origin : RequestOrigin)

/-- What the server does with a request that arrives at a millisecond. -/
def handle (env : Environment) (now : ℕ) (cookies : Cookies) : Request → Handler Response
  | .bff request => proxyBffRequest env cookies request
  | .page page =>
    if page.segments.head? ∈ matcher.map some then
      middleware now cookies page.segments (render cookies page)
    else render cookies page
  | .createSplitBill input =>
    middleware now cookies Page.splitBills.segments (createSplitBill cookies input)
  | .login dto origin => login env dto origin
  | .register dto origin => register env dto origin
  | .logout origin => logout env origin

end Sessions

end PeerLedger
