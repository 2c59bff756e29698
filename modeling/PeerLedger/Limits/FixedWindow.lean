import Mathlib.Data.List.Basic
import Mathlib.Order.Basic

/-!
# Fixed windows

A window opens with a request that finds none open, stays open for `span` and accepts its first
`limit` requests.  `serve` answers the requests of one client in the order they arrive.  Exactly the
first `limit` requests of a window are accepted (`serve_window`).  Windows do not overlap, so that an
interval as long as a window meets two of them at most (`serve_interval`).
-/

namespace Limits

/-- A window with the requests it has counted. -/
structure Window where
  count : ℕ
  resetAt : ℕ
  deriving DecidableEq, Repr

/-- The window that is still open. -/
def Window.live (now : ℕ) (window : Option Window) : Option Window :=
  window.filter fun w => now < w.resetAt

/-- An answered request: its time, whether a window opened with it and whether it was accepted. -/
@[ext]
structure Served where
  time : ℕ
  opens : Bool
  accepted : Bool
  deriving DecidableEq, Repr

/-- A request meets the window left by the requests before it. -/
def request (limit span : ℕ) (window : Option Window) (now : ℕ) : Served × Window :=
  match Window.live now window with
  | none => (⟨now, true, true⟩, ⟨1, now + span⟩)
  | some w => (⟨now, false, w.count + 1 ≤ limit⟩, { w with count := w.count + 1 })

/-- The requests are answered one after another. -/
def serve (limit span : ℕ) : Option Window → List ℕ → List Served
  | _, [] => []
  | window, now :: later =>
    (request limit span window now).1 ::
      serve limit span (some (request limit span window now).2) later

variable {limit span now bound : ℕ} {window : Option Window} {w : Window} {times : List ℕ}

@[simp] lemma live_none (now : ℕ) : Window.live now none = none := rfl

lemma live_some (h : now < w.resetAt) : Window.live now (some w) = some w := by
  simp [Window.live, h]

lemma live_expired (h : w.resetAt ≤ now) : Window.live now (some w) = none := by
  simp [Window.live, h]

lemma request_of_none (limit span : ℕ) (h : Window.live now window = none) :
    request limit span window now = (⟨now, true, true⟩, ⟨1, now + span⟩) := by
  simp [request, h]

lemma request_of_some (limit span : ℕ) (h : Window.live now window = some w) :
    request limit span window now =
      (⟨now, false, w.count + 1 ≤ limit⟩, { w with count := w.count + 1 }) := by
  simp [request, h]

@[simp] lemma request_time (limit span : ℕ) (window : Option Window) (now : ℕ) :
    (request limit span window now).1.time = now := by
  unfold request
  split <;> rfl

/-- A window opens when none is open. -/
lemma request_opens (limit span : ℕ) (window : Option Window) (now : ℕ) :
    (request limit span window now).1.opens = (Window.live now window).isNone := by
  unfold request
  split <;> simp [*]

/-- Each request keeps its time. -/
lemma serve_times (limit span : ℕ) (window : Option Window) (times : List ℕ) :
    (serve limit span window times).map Served.time = times := by
  induction times generalizing window with
  | nil => rfl
  | cons now later ih =>
    simp [serve, ih]

/-- The window after some requests. -/
def after (limit span : ℕ) (window : Option Window) (times : List ℕ) : Option Window :=
  times.foldl (fun window now => some (request limit span window now).2) window

lemma serve_append (limit span : ℕ) (window : Option Window) (earlier later : List ℕ) :
    serve limit span window (earlier ++ later) =
      serve limit span window earlier ++
        serve limit span (after limit span window earlier) later := by
  induction earlier generalizing window with
  | nil => rfl
  | cons now earlier ih => simp [serve, after, ih]

/-! ### The requests of one window -/

/-- Until the next window opens, each request is counted: those below the limit are accepted. -/
lemma serve_counted (h : ∀ s ∈ serve limit span (some w) times, s.opens = false) :
    (serve limit span (some w) times).map Served.accepted =
      List.replicate (min (limit - w.count) times.length) true ++
        List.replicate (times.length - (limit - w.count)) false ∧
    after limit span (some w) times = some { w with count := w.count + times.length } ∧
    ∀ t ∈ times, t < w.resetAt := by
  induction times generalizing w with
  | nil => simp [serve, after]
  | cons now later ih =>
    have hopen : now < w.resetAt := by
      by_contra hexpired
      have hfirst := h _ List.mem_cons_self
      rw [request_of_none _ _ (live_expired (Nat.le_of_not_lt hexpired))] at hfirst
      simp at hfirst
    have hreq := request_of_some limit span (live_some hopen)
    have hlater : ∀ s ∈ serve limit span (some { w with count := w.count + 1 }) later,
        s.opens = false := by
      intro s hs
      refine h s ?_
      rw [serve, hreq]
      exact List.mem_cons_of_mem _ hs
    obtain ⟨haccepted, hafter, htimes⟩ := ih hlater
    refine ⟨?_, ?_, ?_⟩
    · rw [serve, hreq, List.map_cons, haccepted]
      by_cases hlimit : w.count + 1 ≤ limit
      · have hmin : min (limit - w.count) (now :: later).length =
            min (limit - (w.count + 1)) later.length + 1 := by
          simp only [List.length_cons]
          omega
        have hrest : (now :: later).length - (limit - w.count) =
            later.length - (limit - (w.count + 1)) := by
          simp only [List.length_cons]
          omega
        rw [hmin, hrest, List.replicate_succ]
        simp [hlimit]
      · have hzero : limit - w.count = 0 := by omega
        have hzero' : limit - (w.count + 1) = 0 := by omega
        simp [hzero, hzero', hlimit, List.replicate_succ]
    · rw [after, List.foldl_cons, hreq]
      rw [List.length_cons, Nat.add_comm later.length, ← Nat.add_assoc]
      exact hafter
    · intro t ht
      rcases List.mem_cons.mp ht with rfl | ht
      · exact hopen
      · exact htimes t ht

/-- A part of the answers is given to a part of the requests. -/
lemma serve_eq_append {earlier later : List Served}
    (h : serve limit span window times = earlier ++ later) :
    ∃ before rest, times = before ++ rest ∧ serve limit span window before = earlier ∧
      serve limit span (after limit span window before) rest = later := by
  have hlength := congrArg List.length (serve_times limit span window times)
  rw [List.length_map, h, List.length_append] at hlength
  have hsplit := serve_append limit span window (times.take earlier.length)
    (times.drop earlier.length)
  rw [List.take_append_drop, h] at hsplit
  have hbefore := congrArg List.length
    (serve_times limit span window (times.take earlier.length))
  rw [List.length_map, List.length_take_of_le (by omega)] at hbefore
  obtain ⟨hearlier, hlater⟩ := List.append_inj hsplit hbefore.symm
  exact ⟨_, _, (List.take_append_drop _ _).symm, hearlier.symm, hlater.symm⟩

/-- The answers from the opening of a window on. -/
lemma serve_opened {first : Served} {others : List Served}
    (h : serve limit span window times = first :: others) (hopens : first.opens = true) :
    first.accepted = true ∧ ∃ rest, times = first.time :: rest ∧
      serve limit span (some ⟨1, first.time + span⟩) rest = others := by
  cases times with
  | nil => simp [serve] at h
  | cons now rest =>
    obtain ⟨hfirst, hothers⟩ := List.cons.inj h
    cases hlive : Window.live now window with
    | some w =>
      rw [← hfirst, request_of_some _ _ hlive] at hopens
      simp at hopens
    | none =>
      rw [request_of_none _ _ hlive] at hfirst hothers
      subst hfirst
      exact ⟨rfl, rest, rfl, hothers⟩

/-- The first request opens a window. -/
lemma serve_opens {first : Served} {later : List Served}
    (h : serve limit span none times = first :: later) : first.opens = true := by
  cases times with
  | nil => simp [serve] at h
  | cons now rest =>
    rw [← (List.cons.inj h).1]
    rfl

/-- From the opening of a window to the next one exactly the first `limit` requests are
accepted. -/
theorem serve_window (hlimit : 0 < limit) {earlier same later : List Served} {first : Served}
    (h : serve limit span window times = earlier ++ (first :: same) ++ later)
    (hopens : first.opens = true) (hsame : ∀ s ∈ same, s.opens = false) :
    (first :: same).map Served.accepted =
      List.replicate (min limit (first :: same).length) true ++
        List.replicate ((first :: same).length - limit) false := by
  rw [List.append_assoc] at h
  obtain ⟨before, rest, -, -, hrest⟩ := serve_eq_append h
  obtain ⟨haccepted, rest', -, hothers⟩ := serve_opened hrest hopens
  obtain ⟨inside, outside, -, rfl, -⟩ := serve_eq_append hothers
  obtain ⟨hcounted, -, -⟩ := serve_counted hsame
  have hlength := congrArg List.length
    (serve_times limit span (some ⟨1, first.time + span⟩) inside)
  rw [List.length_map] at hlength
  have hmin : min limit (inside.length + 1) = min (limit - 1) inside.length + 1 := by omega
  have hrefused : inside.length + 1 - limit = inside.length - (limit - 1) := by omega
  rw [List.map_cons, haccepted, hcounted, List.length_cons, hlength, hmin, hrefused]
  rfl

/-- The next window opens with the first request that is not before the end of this one. -/
theorem serve_reopens {earlier same later : List Served} {first next : Served}
    (h : serve limit span window times = earlier ++ (first :: same) ++ next :: later)
    (hopens : first.opens = true) (hsame : ∀ s ∈ same, s.opens = false) :
    next.opens = true ↔ first.time + span ≤ next.time := by
  rw [List.append_assoc] at h
  obtain ⟨before, rest, -, -, hrest⟩ := serve_eq_append h
  obtain ⟨-, rest', -, hothers⟩ := serve_opened hrest hopens
  obtain ⟨inside, outside, -, rfl, hnext⟩ := serve_eq_append hothers
  obtain ⟨-, hafter, -⟩ := serve_counted hsame
  rw [hafter] at hnext
  cases outside with
  | nil => simp [serve] at hnext
  | cons now outside =>
    obtain ⟨hfirst, -⟩ := List.cons.inj hnext
    by_cases hlive : now < first.time + span
    · rw [request_of_some _ _ (live_some hlive)] at hfirst
      subst hfirst
      simp only [Bool.false_eq_true, false_iff]
      omega
    · rw [request_of_none _ _ (live_expired (Nat.le_of_not_lt hlive))] at hfirst
      subst hfirst
      simp only [true_iff]
      omega

/-! ### The requests of an interval -/

/-- The accepted requests up to a time. -/
def acceptedUntil (bound : ℕ) (answers : List Served) : ℕ :=
  answers.countP fun s => s.accepted && s.time ≤ bound

/-- No request after the bound is counted. -/
lemma acceptedUntil_eq_zero (window : Option Window) (h : ∀ t ∈ times, bound < t) :
    acceptedUntil bound (serve limit span window times) = 0 := by
  refine List.countP_eq_zero.mpr ?_
  intro s hs
  have htime : s.time ∈ times := by
    rw [← serve_times limit span window times]
    exact List.mem_map_of_mem hs
  have hlate := h _ htime
  simp only [Bool.and_eq_true, decide_eq_true_eq, not_and]
  omega

/-- A request is counted at most once. -/
lemma acceptedUntil_cons_le (bound : ℕ) (answer : Served) (answers : List Served) :
    acceptedUntil bound (answer :: answers) ≤ acceptedUntil bound answers + 1 := by
  unfold acceptedUntil
  rw [List.countP_cons]
  split <;> omega

/-- A refused request is not counted. -/
lemma acceptedUntil_cons_refused {answer : Served} (h : answer.accepted = false) (bound : ℕ)
    (answers : List Served) :
    acceptedUntil bound (answer :: answers) = acceptedUntil bound answers := by
  simp [acceptedUntil, h]

/-- A request inside a window takes one of its places, if one is left. -/
lemma acceptedUntil_counted (limit span bound : ℕ) (hlive : now < w.resetAt) (later : List ℕ) :
    acceptedUntil bound (serve limit span (some w) (now :: later)) ≤
      min 1 (limit - w.count) + acceptedUntil bound
        (serve limit span (some { w with count := w.count + 1 }) later) := by
  rw [serve, request_of_some _ _ (live_some hlive)]
  by_cases hplace : w.count + 1 ≤ limit
  · have hone := acceptedUntil_cons_le bound ⟨now, false, decide (w.count + 1 ≤ limit)⟩
      (serve limit span (some { w with count := w.count + 1 }) later)
    have hmin : min 1 (limit - w.count) = 1 := by omega
    simp only
    omega
  · rw [acceptedUntil_cons_refused (decide_eq_false hplace)]
    exact Nat.le_add_left _ _

/-- Before the end of a window its remaining places are accepted. -/
lemma acceptedUntil_window (limit span : ℕ) (hsorted : times.Pairwise (· ≤ ·)) (hbound : bound < w.resetAt) :
    acceptedUntil bound (serve limit span (some w) times) ≤ limit - w.count := by
  induction times generalizing w with
  | nil => simp [serve, acceptedUntil]
  | cons now later ih =>
    obtain ⟨hnow, hlater⟩ := List.pairwise_cons.mp hsorted
    rcases Nat.lt_or_ge bound now with hlate | hearly
    · rw [acceptedUntil_eq_zero]
      · omega
      · intro t ht
        rcases List.mem_cons.mp ht with rfl | ht
        · exact hlate
        · exact Nat.lt_of_lt_of_le hlate (hnow t ht)
    · have hcounted := acceptedUntil_counted limit span bound
        (Nat.lt_of_le_of_lt hearly hbound) later
      have hrest := ih hlater (w := { w with count := w.count + 1 }) hbound
      simp only at hrest
      omega

/-- Before the end of the window after it a whole window more is accepted. -/
lemma acceptedUntil_two (hlimit : 0 < limit) (hsorted : times.Pairwise (· ≤ ·))
    (hbound : bound < w.resetAt + span) :
    acceptedUntil bound (serve limit span (some w) times) ≤ limit - w.count + limit := by
  induction times generalizing w with
  | nil => simp [serve, acceptedUntil]
  | cons now later ih =>
    obtain ⟨-, hlater⟩ := List.pairwise_cons.mp hsorted
    rcases Nat.lt_or_ge now w.resetAt with hlive | hexpired
    · have hcounted := acceptedUntil_counted limit span bound
        hlive later
      have hrest := ih hlater (w := { w with count := w.count + 1 }) hbound
      simp only at hrest
      omega
    · have hone := acceptedUntil_cons_le bound ⟨now, true, true⟩
        (serve limit span (some ⟨1, now + span⟩) later)
      have hend : bound < now + span := by omega
      have hrest := acceptedUntil_window (w := ⟨1, now + span⟩) limit span hlater hend
      rw [serve, request_of_none _ _ (live_expired hexpired)]
      simp only at hrest ⊢
      omega

/-- An interval no longer than a window has at most `2 * limit` accepted requests. -/
theorem serve_interval (hlimit : 0 < limit) (hspan : 0 < span) (hsorted : times.Pairwise (· ≤ ·))
    (window : Option Window) (start : ℕ) :
    (serve limit span window times).countP
      (fun s => s.accepted && (decide (start ≤ s.time) && decide (s.time ≤ start + span))) ≤
        2 * limit := by
  induction times generalizing window with
  | nil => simp [serve]
  | cons now later ih =>
    rcases Nat.lt_or_ge now start with hbefore | hinside
    · rw [serve, List.countP_cons_of_neg (by simp; omega)]
      exact ih (List.pairwise_cons.mp hsorted).2 _
    · -- From here on every request is inside or after the interval.
      refine Nat.le_trans (List.countP_mono_left ?_) (?_ : acceptedUntil (start + span) _ ≤ _)
      · intro s _ hs
        simp only [Bool.and_eq_true, decide_eq_true_eq] at hs ⊢
        exact ⟨hs.1, hs.2.2⟩
      · cases hlive : Window.live now window with
        | some w =>
          obtain ⟨rfl, hopen⟩ := Option.filter_eq_some_iff.mp hlive
          have hend : start + span < w.resetAt + span := by
            have := of_decide_eq_true hopen
            omega
          have htwo := acceptedUntil_two hlimit hsorted hend
          omega
        | none =>
          have hone := acceptedUntil_cons_le (start + span) ⟨now, true, true⟩
            (serve limit span (some ⟨1, now + span⟩) later)
          have hend : start + span < now + span + span := by omega
          have htwo := acceptedUntil_two (w := ⟨1, now + span⟩) hlimit
            (List.pairwise_cons.mp hsorted).2 hend
          rw [serve, request_of_none _ _ hlive]
          simp only at htwo ⊢
          omega

end Limits
