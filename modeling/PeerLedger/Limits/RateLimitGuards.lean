import Mathlib.Data.List.AList
import PeerLedger.Limits.FixedWindow

/-!
# The rate limit guards

The guard of the transfers counts the requests of each user, the guard of the logins those of each
address.  Both keep a map from keys to windows, which all requests change and which is pruned when it
has grown large.  The requests of one key are nevertheless answered as a single client's are
(`serve_filter`).
-/

namespace PeerLedger.RateLimits

open Limits

/-! ## The guards -/

/-- The error of a refused request. -/
structure HttpException where
  message : String
  status : ℕ
  deriving DecidableEq, Repr

/-- The largest safe integer of a `number`. -/
def maxSafeInteger : ℤ := 9007199254740991

/-- A setting that is no positive safe integer is replaced; `parsed` is the integer it is read as. -/
def positiveInteger (parsed : Option ℤ) (fallback : ℕ) : ℕ :=
  match parsed with
  | some n => if n ≤ maxSafeInteger ∧ 0 < n then n.toNat else fallback
  | none => fallback

/-- Settings read from the environment. -/
structure Settings where
  limit : ℕ
  windowMs : ℕ
  limit_pos : 0 < limit
  windowMs_pos : 0 < windowMs

/-- A setting is positive when its replacement is. -/
lemma positiveInteger_pos {fallback : ℕ} (h : 0 < fallback) (parsed : Option ℤ) :
    0 < positiveInteger parsed fallback := by
  unfold positiveInteger
  split
  · split <;> omega
  · exact h

/-- `windows`: a window for each key. -/
abbrev Windows := AList fun _ : String => Window

/-- The windows that are over are deleted from a large map. -/
def prune (now : ℕ) (windows : Windows) : Windows :=
  if windows.entries.length < 10000 then windows
  else windows.entries.foldl
    (fun kept entry => if entry.2.resetAt ≤ now then kept.erase entry.1 else kept) windows

/-- The common part of both guards. -/
def consume (message : String) (settings : Settings) (windows : Windows) (key : String) (now : ℕ) :
    Except HttpException Bool × Windows :=
  match windows.lookup key with
  | none => (.ok true, prune now (windows.insert key ⟨1, now + settings.windowMs⟩))
  | some current =>
    if current.resetAt ≤ now then
      (.ok true, prune now (windows.insert key ⟨1, now + settings.windowMs⟩))
    else
      (if settings.limit < current.count + 1 then .error ⟨message, 429⟩ else .ok true,
        windows.insert key { current with count := current.count + 1 })

namespace TransferRateLimitGuard

/-- `TRANSFER_RATE_LIMIT_MAX` and `TRANSFER_RATE_LIMIT_WINDOW_MS`. -/
def settings (max windowMs : Option ℤ) : Settings where
  limit := positiveInteger max 30
  windowMs := positiveInteger windowMs 60000
  limit_pos := positiveInteger_pos (by decide) max
  windowMs_pos := positiveInteger_pos (by decide) windowMs

/-- The user of a request; one that is absent or empty is not counted. -/
def key (userId : Option String) : Option String := userId.filter (· ≠ "")

def canActivate (settings : Settings) (windows : Windows) (userId : Option String) (now : ℕ) :
    Except HttpException Bool × Windows :=
  match key userId with
  | none => (.ok true, windows)
  | some userId => consume "Too many transfer requests" settings windows userId now

end TransferRateLimitGuard

namespace LoginRateLimitGuard

/-- `LOGIN_RATE_LIMIT_MAX` and `LOGIN_RATE_LIMIT_WINDOW_MS`. -/
def settings (max windowMs : Option ℤ) : Settings where
  limit := positiveInteger max 10
  windowMs := positiveInteger windowMs 60000
  limit_pos := positiveInteger_pos (by decide) max
  windowMs_pos := positiveInteger_pos (by decide) windowMs

/-- The addresses of a request. -/
structure Request where
  ip : Option String
  remoteAddress : Option String

/-- `request.ip || request.socket.remoteAddress || 'unknown'`. -/
def key (request : Request) : String :=
  ((request.ip.filter (· ≠ "")).or (request.remoteAddress.filter (· ≠ ""))).getD "unknown"

def canActivate (settings : Settings) (windows : Windows) (request : Request) (now : ℕ) :
    Except HttpException Bool × Windows :=
  consume "Too many login attempts" settings windows (key request) now

end LoginRateLimitGuard

/-! ## Sequences of requests -/

section Serve

variable {R : Type}

/-- A request that a guard has answered. -/
structure Answer where
  key : Option String
  served : Served
  deriving DecidableEq

/-- The requests are answered one after another.  A window opens for a key that has none open. -/
def answers (canActivate : Windows → R → ℕ → Except HttpException Bool × Windows)
    (key : R → Option String) : Windows → List (R × ℕ) → List Answer
  | _, [] => []
  | windows, (request, now) :: later =>
    { key := key request
      served :=
        { time := now
          opens := (key request).any fun key => (Window.live now (windows.lookup key)).isNone
          accepted := (canActivate windows request now).1.toOption = some true } } ::
      answers canActivate key (canActivate windows request now).2 later

/-- The requests of a key, as they are answered. -/
def answersOf (key : String) (list : List Answer) : List Served :=
  (list.filter fun answer => answer.key = some key).map Answer.served

/-- What a rate limit guard is for. -/
structure RateLimited (settings : Settings)
    (canActivate : Windows → R → ℕ → Except HttpException Bool × Windows)
    (key : R → Option String) : Prop where
  /-- The answers of a key are those the guard gives when no other requests are made. -/
  independent : ∀ (requests : List (R × ℕ)) (k : String),
    requests.Pairwise (fun a b => a.2 ≤ b.2) →
    answersOf k (answers canActivate key ∅ requests) =
      answersOf k (answers canActivate key ∅ (requests.filter fun r => key r.1 = some k))
  /-- From the opening of a window on, the first `limit` requests are accepted and no others. -/
  window : ∀ (requests : List (R × ℕ)) (k : String) (earlier same later : List Served)
    (first : Served), requests.Pairwise (fun a b => a.2 ≤ b.2) →
    answersOf k (answers canActivate key ∅ requests) = earlier ++ (first :: same) ++ later →
    first.opens = true → (∀ s ∈ same, s.opens = false) →
    (first :: same).map Served.accepted =
      List.replicate (min settings.limit (first :: same).length) true ++
        List.replicate ((first :: same).length - settings.limit) false
  /-- The next window opens with the first request after the time of the window. -/
  reopens : ∀ (requests : List (R × ℕ)) (k : String) (earlier same later : List Served)
    (first next : Served), requests.Pairwise (fun a b => a.2 ≤ b.2) →
    answersOf k (answers canActivate key ∅ requests) = earlier ++ (first :: same) ++ next :: later →
    first.opens = true → (∀ s ∈ same, s.opens = false) →
    (next.opens = true ↔ first.time + settings.windowMs ≤ next.time)
  /-- The first request of a key opens a window. -/
  opens : ∀ (requests : List (R × ℕ)) (k : String) (first : Served) (later : List Served),
    requests.Pairwise (fun a b => a.2 ≤ b.2) →
    answersOf k (answers canActivate key ∅ requests) = first :: later → first.opens = true
  /-- At most `2 * limit` requests of a key are accepted in an interval as long as a window. -/
  interval : ∀ (requests : List (R × ℕ)) (k : String) (start : ℕ),
    requests.Pairwise (fun a b => a.2 ≤ b.2) →
    (answersOf k (answers canActivate key ∅ requests)).countP
      (fun s => s.accepted && (decide (start ≤ s.time) &&
        decide (s.time ≤ start + settings.windowMs))) ≤ 2 * settings.limit

/-! ### The requests of one key -/

/-- A map shows a client's window at all times from `now` on. -/
def Shows (windows : Windows) (key : String) (now : ℕ) (window : Option Window) : Prop :=
  ∀ later, now ≤ later →
    Window.live later (windows.lookup key) = Window.live later window

variable {windows : Windows} {key k : String} {now : ℕ} {window : Option Window}
  {message : String} {settings : Settings} {w : Window}

/-- Deleting expired windows changes no lookup but theirs. -/
lemma lookup_foldl_erase (entries : List (Sigma fun _ : String => Window))
    (hentries : ∀ e ∈ entries, windows.lookup e.1 = some e.2 ∨ windows.lookup e.1 = none) :
    Shows (entries.foldl
      (fun kept entry => if entry.2.resetAt ≤ now then kept.erase entry.1 else kept) windows)
      key now (windows.lookup key) := by
  induction entries generalizing windows with
  | nil =>
    intro later _
    rfl
  | cons entry rest ih =>
    intro later hlater
    rw [List.foldl_cons]
    split
    · rename_i hexpired
      have hrest := @ih (windows.erase entry.1) ?_ later hlater
      · rw [hrest]
        by_cases hkey : key = entry.1
        · subst hkey
          rw [AList.lookup_erase]
          rcases hentries entry List.mem_cons_self with hsome | hnone
          · rw [hsome, live_none, live_expired (Nat.le_trans hexpired hlater)]
          · rw [hnone]
        · rw [AList.lookup_erase_ne hkey]
      · intro e he
        by_cases hkey : e.1 = entry.1
        · exact Or.inr (by rw [hkey, AList.lookup_erase])
        · rw [AList.lookup_erase_ne hkey]
          exact hentries e (List.mem_cons_of_mem _ he)
    · exact ih (fun e he => hentries e (List.mem_cons_of_mem _ he)) later hlater

/-- Pruning deletes nothing that is still open. -/
lemma shows_prune (windows : Windows) (key : String) (now : ℕ) :
    Shows (prune now windows) key now (windows.lookup key) := by
  unfold prune
  split
  · intro later _
    rfl
  · exact lookup_foldl_erase _ fun e he => Or.inl (AList.mem_lookup_iff.mpr he)

/-- A request that finds no open window opens one. -/
lemma consume_of_none (message : String) (settings : Settings)
    (h : Window.live now (windows.lookup key) = none) :
    consume message settings windows key now =
      (.ok true, prune now (windows.insert key ⟨1, now + settings.windowMs⟩)) := by
  unfold consume
  cases hlookup : windows.lookup key with
  | none => rfl
  | some current =>
    have hexpired : current.resetAt ≤ now := by
      by_contra hopen
      rw [hlookup, live_some (Nat.lt_of_not_le hopen)] at h
      simp at h
    exact if_pos hexpired

/-- A request inside a window is counted. -/
lemma consume_of_some (message : String) (settings : Settings)
    (h : Window.live now (windows.lookup key) = some w) :
    consume message settings windows key now =
      (if settings.limit < w.count + 1 then .error ⟨message, 429⟩ else .ok true,
        windows.insert key { w with count := w.count + 1 }) := by
  obtain ⟨hlookup, hopen⟩ := Option.filter_eq_some_iff.mp h
  unfold consume
  rw [hlookup]
  exact if_neg (Nat.not_le_of_lt (of_decide_eq_true hopen))

/-- The client's next request is answered by its own window, which the map shows again. -/
lemma consume_own (message : String) (settings : Settings) (h : Shows windows key now window) :
    decide ((consume message settings windows key now).1.toOption = some true) =
      (request settings.limit settings.windowMs window now).1.accepted ∧
    Shows (consume message settings windows key now).2 key now
      (some (request settings.limit settings.windowMs window now).2) := by
  have hnow := h now (Nat.le_refl now)
  cases hlive : Window.live now window with
  | none =>
    rw [consume_of_none _ _ (hnow.trans hlive), request_of_none _ _ hlive]
    refine ⟨rfl, ?_⟩
    have hprune := shows_prune (windows.insert key ⟨1, now + settings.windowMs⟩) key now
    rwa [AList.lookup_insert] at hprune
  | some w =>
    rw [consume_of_some _ _ (hnow.trans hlive), request_of_some _ _ hlive]
    constructor
    · by_cases hlimit : settings.limit < w.count + 1
      · rw [if_pos hlimit]
        exact (decide_eq_false (Nat.not_le_of_lt hlimit)).symm
      · rw [if_neg hlimit]
        exact (decide_eq_true (Nat.le_of_not_lt hlimit)).symm
    · intro later _
      rw [AList.lookup_insert]

/-- Another client's request leaves the window as it is. -/
lemma consume_other (message : String) (settings : Settings) (h : Shows windows key now window)
    (hkey : key ≠ k) : Shows (consume message settings windows k now).2 key now window := by
  cases hlive : Window.live now (windows.lookup k) with
  | none =>
    rw [consume_of_none _ _ hlive]
    intro later hlater
    rw [shows_prune _ key now later hlater, AList.lookup_insert_ne hkey, h later hlater]
  | some w =>
    rw [consume_of_some _ _ hlive]
    intro later hlater
    rw [AList.lookup_insert_ne hkey, h later hlater]

/-! ### The requests of all keys -/

variable {canActivate : Windows → R → ℕ → Except HttpException Bool × Windows}
  {keyOf : R → Option String}

/-- The guard consumes a request of a key and lets the others through. -/
def Consumes (message : String) (settings : Settings)
    (canActivate : Windows → R → ℕ → Except HttpException Bool × Windows)
    (keyOf : R → Option String) : Prop :=
  ∀ windows request now, canActivate windows request now =
    match keyOf request with
    | none => (.ok true, windows)
    | some key => consume message settings windows key now

/-- The answers of a key are those of a single client, whatever else is requested. -/
theorem serve_filter (hguard : Consumes message settings canActivate keyOf)
    {requests : List (R × ℕ)} (hsorted : requests.Pairwise fun a b => a.2 ≤ b.2)
    (hstart : ∀ r ∈ requests, now ≤ r.2) (hshows : Shows windows key now window) :
    answersOf key (answers canActivate keyOf windows requests) =
      serve settings.limit settings.windowMs window
        ((requests.filter fun r => keyOf r.1 = some key).map Prod.snd) := by
  induction requests generalizing windows now window with
  | nil => rfl
  | cons r later ih =>
    obtain ⟨hr, hlater⟩ := List.pairwise_cons.mp hsorted
    have hnow : now ≤ r.2 := hstart r List.mem_cons_self
    have hshows' : Shows windows key r.2 window := fun t ht => hshows t (Nat.le_trans hnow ht)
    rw [answers]
    by_cases hkey : keyOf r.1 = some key
    · have hcan : canActivate windows r.1 r.2 = consume message settings windows key r.2 := by
        rw [hguard, hkey]
      obtain ⟨haccepted, hnext⟩ := consume_own message settings hshows'
      have hrest := ih hlater hr hnext
      rw [List.filter_cons_of_pos (by simp [hkey]), List.map_cons, serve, ← hrest]
      rw [answersOf, List.filter_cons_of_pos (by simp [hkey]), List.map_cons, hcan, haccepted,
        hkey, Option.any_some, hshows' r.2 (Nat.le_refl _), ← request_opens settings.limit
        settings.windowMs]
      congr 1
      exact Served.ext (request_time _ _ _ _).symm rfl rfl
    · have hnext : Shows (canActivate windows r.1 r.2).2 key r.2 window := by
        rw [hguard]
        split
        · exact hshows'
        · rename_i other hother
          exact consume_other message settings hshows' fun heq => hkey (heq ▸ hother)
      rw [List.filter_cons_of_neg (by simp [hkey]), answersOf,
        List.filter_cons_of_neg (by simp [hkey])]
      exact ih hlater hr hnext

/-- A client that has made no request has no window. -/
lemma shows_empty (key : String) : Shows ∅ key 0 none := fun _ _ => rfl

lemma answersOf_answers (hguard : Consumes message settings canActivate keyOf) (key : String)
    {requests : List (R × ℕ)} (hsorted : requests.Pairwise fun a b => a.2 ≤ b.2) :
    answersOf key (answers canActivate keyOf ∅ requests) =
      serve settings.limit settings.windowMs none
        ((requests.filter fun r => keyOf r.1 = some key).map Prod.snd) :=
  serve_filter hguard hsorted (fun _ _ => Nat.zero_le _) (shows_empty key)

/-- A guard that consumes the requests of each key limits their rate. -/
theorem rateLimited_of_consumes (hguard : Consumes message settings canActivate keyOf) :
    RateLimited settings canActivate keyOf where
  independent requests key hsorted := by
    rw [answersOf_answers hguard key hsorted, answersOf_answers hguard key (hsorted.filter _),
      List.filter_filter]
    simp only [Bool.and_self]
  window requests key earlier same later first hsorted hanswers := by
    rw [answersOf_answers hguard key hsorted] at hanswers
    exact serve_window settings.limit_pos hanswers
  reopens requests key earlier same later first next hsorted hanswers := by
    rw [answersOf_answers hguard key hsorted] at hanswers
    exact serve_reopens hanswers
  opens requests key first later hsorted hanswers := by
    rw [answersOf_answers hguard key hsorted] at hanswers
    exact serve_opens hanswers
  interval requests key start hsorted := by
    rw [answersOf_answers hguard key hsorted]
    refine serve_interval settings.limit_pos settings.windowMs_pos ?_ none start
    exact List.pairwise_map.mpr (hsorted.filter _)

end Serve

/-- Both guards limit the requests of each key, whatever the settings are. -/
theorem guards_limit_each_key (settings : Settings) :
    RateLimited settings (TransferRateLimitGuard.canActivate settings)
      TransferRateLimitGuard.key ∧
    RateLimited settings (LoginRateLimitGuard.canActivate settings)
      fun request => some (LoginRateLimitGuard.key request) := by
  constructor
  · exact rateLimited_of_consumes fun _ _ _ => rfl
  · exact rateLimited_of_consumes fun _ _ _ => rfl

/-- One request a minute: a second one is refused, another user's is not. -/
example : (answers (TransferRateLimitGuard.canActivate (TransferRateLimitGuard.settings (some 1) none))
    TransferRateLimitGuard.key ∅
    [(some "user-a", 0), (some "user-a", 5), (some "user-b", 7), (some "user-a", 60000)]).map
      (fun answer => answer.served.accepted) = [true, false, true, true] := by
  decide

end PeerLedger.RateLimits
