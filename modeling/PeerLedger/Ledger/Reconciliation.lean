import PeerLedger.Ledger.Decisions

/-!
# Reconciliation

The auditor of `ledger-maintenance.service.ts`.  `reconcileGlobal` reads the journal of a period and
checks the postings of every money event again, with code of its own; `audit_eq` gives the result of
its loop in closed form, and `global_reconciliation_exact` compares it with `readPostings`, the reader
that replay uses.
-/

namespace PeerLedger

namespace Ledger

open Transactions WalletAggregate

/-! ### The auditor -/

def POSTING_EVENTS : List String := [MONEY_DEPOSITED, WITHDRAWAL_COMPLETED, HOLD_CONSUMED]

/-- The amount of one element of `payload.postings`. -/
def postingAmount : Json → Except String Int
  | .obj fields =>
    match fields.lookup "accountId", fields.lookup "amountMinor" with
    | some (.str _), some (.str amountMinor) => parseMinorUnits amountMinor
    | _, _ => .error "Invalid posting"
  | _ => .error "Invalid posting"

/-- The amounts of an event's postings, or `none` when they cannot be read. -/
def postingAmounts (event : StoredEvent) : Except String (Option (List Int)) := do
  match ← event.payload.access "postings" with
  | some (.arr postings) =>
    if postings.length < 2 then return none
    else return (postings.mapM postingAmount).toOption
  | _ => return none

/-- What the auditor has counted so far. -/
structure Audit where
  credits : Int
  debits : Int
  transactionCount : Nat
  invalidTransactionEventIds : List String

/-- The amounts of an event go to the credits or to the debits. -/
def Audit.addAmounts (audit : Audit) (amounts : List Int) : Audit :=
  amounts.foldl (fun audit amount =>
    if amount ≥ 0 then { audit with credits := audit.credits + amount }
    else { audit with debits := audit.debits + -amount }) audit

/-- One round of the auditor's loop. -/
def Audit.next (audit : Audit) (event : StoredEvent) : Except String Audit :=
  if event.eventType ∉ POSTING_EVENTS then .ok audit
  else do
    let audit := { audit with transactionCount := audit.transactionCount + 1 }
    match ← postingAmounts event with
    | none => return { audit with
        invalidTransactionEventIds := audit.invalidTransactionEventIds ++ [event.eventId] }
    | some amounts =>
      let audit := if amounts.sum ≠ 0 then { audit with
        invalidTransactionEventIds := audit.invalidTransactionEventIds ++ [event.eventId] } else audit
      return audit.addAmounts amounts

/-- The report of the auditor. -/
structure GlobalReconciliation where
  start : Int
  stop : Int
  transactionCount : Nat
  creditsMinor : String
  debitsMinor : String
  invalidTransactionEventIds : List String
  balanced : Bool

/-- `9999-12-31T23:59:59.999Z`. -/
def END_OF_TIME : Int := 253402300799999

/-- The events of a period in the order in which the auditor reads them. -/
def inPeriod (start stop : Int) (events : List StoredEvent) : List StoredEvent :=
  (events.filter fun event => start ≤ event.createdAt ∧ event.createdAt ≤ stop).insertionSort
    fun e e' => e.createdAt < e'.createdAt ∨
      (e.createdAt = e'.createdAt ∧ e.streamVersion ≤ e'.streamVersion)

def reconcileGlobal (db : Database) (start stop : Option Int) :
    Except String GlobalReconciliation := do
  let start := start.getD 0
  let stop := stop.getD END_OF_TIME
  let audit ← (inPeriod start stop db.events).foldlM Audit.next ⟨0, 0, 0, []⟩
  return { start, stop, transactionCount := audit.transactionCount,
           creditsMinor := toString audit.credits, debitsMinor := toString audit.debits,
           invalidTransactionEventIds := audit.invalidTransactionEventIds,
           balanced := audit.invalidTransactionEventIds.isEmpty ∧ audit.credits = audit.debits }

/-! ### The auditor and the reader -/

section Reading

variable {α β γ : Type}

/-- A list is read when its head and its tail are. -/
lemma mapM_cons_ok {f : α → Except String β} {x : α} {xs : List α} {ys : List β} :
    (x :: xs).mapM f = .ok ys ↔ ∃ y ys', f x = .ok y ∧ xs.mapM f = .ok ys' ∧ ys = y :: ys' := by
  rw [List.mapM_cons, except_bind_ok]
  simp only [except_bind_ok, pure, Except.pure, Except.ok.injEq]
  constructor
  · rintro ⟨y, hy, ys', hys', rfl⟩
    exact ⟨y, ys', hy, hys', rfl⟩
  · rintro ⟨y, ys', hy, hys', rfl⟩
    exact ⟨y, hy, ys', hys', rfl⟩

/-- Reading keeps the length. -/
lemma length_of_mapM_ok {f : α → Except String β} {xs : List α} {ys : List β}
    (h : xs.mapM f = .ok ys) : ys.length = xs.length := by
  induction xs generalizing ys with
  | nil =>
    cases h
    rfl
  | cons x xs ih =>
    obtain ⟨y, ys', -, hys', rfl⟩ := mapM_cons_ok.mp h
    rw [List.length_cons, List.length_cons, ih hys']

/-- One reading is two readings after each other. -/
lemma mapM_comp_ok {f : α → Except String β} {g : β → Except String γ} {h : α → Except String γ}
    (hh : ∀ x z, h x = .ok z ↔ ∃ y, f x = .ok y ∧ g y = .ok z) {xs : List α} {zs : List γ} :
    xs.mapM h = .ok zs ↔ ∃ ys, xs.mapM f = .ok ys ∧ ys.mapM g = .ok zs := by
  induction xs generalizing zs with
  | nil =>
    constructor
    · intro hz
      exact ⟨[], rfl, hz⟩
    · rintro ⟨ys, hys, hzs⟩
      cases hys
      exact hzs
  | cons x xs ih =>
    constructor
    · intro hzs
      obtain ⟨z, zs', hz, hzs', rfl⟩ := mapM_cons_ok.mp hzs
      obtain ⟨y, hy, hyz⟩ := (hh x z).mp hz
      obtain ⟨ys, hys, hyzs⟩ := ih.mp hzs'
      exact ⟨y :: ys, mapM_cons_ok.mpr ⟨y, ys, hy, hys, rfl⟩,
        mapM_cons_ok.mpr ⟨z, zs', hyz, hyzs, rfl⟩⟩
    · rintro ⟨ys, hys, hzs⟩
      obtain ⟨y, ys', hy, hys', rfl⟩ := mapM_cons_ok.mp hys
      obtain ⟨z, zs', hz, hzs', rfl⟩ := mapM_cons_ok.mp hzs
      exact mapM_cons_ok.mpr ⟨z, zs', (hh x z).mpr ⟨y, hy, hz⟩, ih.mpr ⟨ys', hys', hzs'⟩, rfl⟩

end Reading

/-- The amounts of postings. -/
def parseAmounts (postings : List Posting) : Except String (List Int) :=
  postings.mapM fun posting => parseMinorUnits posting.amountMinor

/-- The auditor reads of one posting what the reader reads. -/
lemma postingAmount_ok (x : Json) (n : Int) : postingAmount x = .ok n ↔
    ∃ posting, readPosting x = .ok posting ∧ parseMinorUnits posting.amountMinor = .ok n := by
  cases x with
  | obj fields =>
    by_cases htexts : ∃ accountId amountMinor, fields.lookup "accountId" = some (.str accountId) ∧
        fields.lookup "amountMinor" = some (.str amountMinor)
    · obtain ⟨accountId, amountMinor, haccount, hamount⟩ := htexts
      simp [postingAmount, readPosting, haccount, hamount]
    · have hamount : postingAmount (.obj fields) = .error "Invalid posting" := by
        unfold postingAmount
        dsimp only
        split
        · next h₁ h₂ => exact absurd ⟨_, _, h₁, h₂⟩ htexts
        · rfl
      have hread : readPosting (.obj fields) =
          .error "Ledger event contains an invalid posting" := by
        unfold readPosting
        dsimp only
        split
        · next h₁ h₂ => exact absurd ⟨_, _, h₁, h₂⟩ htexts
        · rfl
      rw [hamount, hread]
      simp
  | null => simp [postingAmount, readPosting]
  | bool b => simp [postingAmount, readPosting]
  | num m => simp [postingAmount, readPosting]
  | str s => simp [postingAmount, readPosting]
  | arr xs => simp [postingAmount, readPosting]

/-- The total is the sum of the amounts. -/
lemma totalMinorUnits_ok (postings : List Posting) (n : Int) : totalMinorUnits postings = .ok n ↔
    ∃ amounts, parseAmounts postings = .ok amounts ∧ amounts.sum = n := by
  have hfold : ∀ (ps : List Posting) (m n : Int),
      (ps.foldlM (fun sum posting => do return sum + (← parseMinorUnits posting.amountMinor)) m :
        Except String Int) = .ok n ↔
      ∃ amounts, parseAmounts ps = .ok amounts ∧ m + amounts.sum = n := by
    intro ps
    induction ps with
    | nil => simp [parseAmounts, pure, Except.pure]
    | cons p ps ih =>
      intro m n
      rw [List.foldlM_cons, except_bind_ok]
      constructor
      · rintro ⟨sum, hsum, hrest⟩
        obtain ⟨k, hk, hadd⟩ := except_bind_ok.mp hsum
        cases hadd
        obtain ⟨amounts, hamounts, heq⟩ := (ih _ n).mp hrest
        refine ⟨k :: amounts, mapM_cons_ok.mpr ⟨k, amounts, hk, hamounts, rfl⟩, ?_⟩
        rw [List.sum_cons]
        omega
      · rintro ⟨amounts, hamounts, heq⟩
        obtain ⟨k, amounts', hk, hamounts', rfl⟩ := mapM_cons_ok.mp hamounts
        rw [List.sum_cons] at heq
        refine ⟨m + k, except_bind_ok.mpr ⟨k, hk, rfl⟩, (ih _ n).mpr ⟨amounts', hamounts', ?_⟩⟩
        omega
  simpa [totalMinorUnits] using hfold postings 0 n

/-- A ledger transaction is balanced when it has two postings or more, whose amounts sum to zero. -/
lemma assertBalancedPostings_ok (postings : List Posting) : assertBalancedPostings postings = .ok () ↔
    2 ≤ postings.length ∧ ∃ amounts, parseAmounts postings = .ok amounts ∧ amounts.sum = 0 := by
  unfold assertBalancedPostings
  rw [ite_error_eq_ok, except_bind_ok, not_lt]
  refine and_congr_right fun _ => ?_
  constructor
  · rintro ⟨total, htotal, hzero⟩
    obtain ⟨amounts, hamounts, rfl⟩ := (totalMinorUnits_ok postings total).mp htotal
    exact ⟨amounts, hamounts, not_not.mp (ite_error_eq_ok.mp hzero).1⟩
  · rintro ⟨amounts, hamounts, hsum⟩
    refine ⟨0, (totalMinorUnits_ok postings 0).mpr ⟨amounts, hamounts, hsum⟩, ?_⟩
    exact ite_error_eq_ok.mpr ⟨by simp, rfl⟩

/-- The amounts that replay reads from an event. -/
def ReadsAmounts (e : StoredEvent) (amounts : List Int) : Prop :=
  ∃ postings, readPostings e.payload = .ok postings ∧ parseAmounts postings = .ok amounts

/-- The auditor's amounts sum to zero exactly when the reader accepts the payload. -/
lemma readsAmounts_iff {e : StoredEvent} {fields : List (String × Json)} (he : e.payload = .obj fields)
    {amounts : List Int} : ReadsAmounts e amounts ↔
      postingAmounts e = .ok (some amounts) ∧ amounts.sum = 0 := by
  have hcomp : ∀ {xs : List Json}, xs.mapM postingAmount = .ok amounts ↔
      ∃ ps, xs.mapM readPosting = .ok ps ∧ parseAmounts ps = .ok amounts :=
    fun {xs} => mapM_comp_ok postingAmount_ok
  unfold ReadsAmounts readPostings postingAmounts
  rw [he]
  simp only [Json.access, bind, Except.bind]
  cases hlookup : fields.lookup "postings" with
  | none => simp [pure, Except.pure]
  | some json =>
    cases json with
    | arr xs =>
      simp only [pure, Except.pure]
      constructor
      · rintro ⟨postings, hread, hamounts⟩
        obtain ⟨ps, hps, hrest⟩ := except_bind_ok.mp hread
        obtain ⟨⟨⟩, hbalanced, heq⟩ := except_bind_ok.mp hrest
        cases heq
        obtain ⟨htwo, amounts', hamounts', hsum⟩ := (assertBalancedPostings_ok _).mp hbalanced
        obtain rfl := Except.ok.inj (hamounts'.symm.trans hamounts)
        rw [length_of_mapM_ok hps] at htwo
        rw [if_neg (not_lt.mpr htwo), hcomp.mpr ⟨_, hps, hamounts⟩]
        exact ⟨rfl, hsum⟩
      · rintro ⟨haudit, hsum⟩
        split_ifs at haudit with htwo
        · cases haudit
        · cases hxs : xs.mapM postingAmount with
          | error message =>
            rw [hxs] at haudit
            cases haudit
          | ok amounts' =>
            rw [hxs] at haudit
            cases haudit
            obtain ⟨ps, hps, hamounts⟩ := hcomp.mp hxs
            have hlength := length_of_mapM_ok hps
            have hbalanced : assertBalancedPostings ps = .ok () :=
              (assertBalancedPostings_ok ps).mpr ⟨by omega, amounts, hamounts, hsum⟩
            refine ⟨ps, ?_, hamounts⟩
            change (xs.mapM readPosting >>= fun postings =>
              assertBalancedPostings postings >>= fun _ => pure postings) = _
            rw [hps]
            change (assertBalancedPostings ps >>= fun _ => pure ps) = _
            rw [hbalanced]
            rfl
    | null => simp [pure, Except.pure]
    | bool b => simp [pure, Except.pure]
    | num n => simp [pure, Except.pure]
    | str s => simp [pure, Except.pure]
    | obj fields => simp [pure, Except.pure]

/-! ### The loop in closed form -/

/-- The part of amounts that the auditor adds to the credits. -/
def creditsOf (amounts : List Int) : Int := (amounts.filter fun n => 0 ≤ n).sum

/-- The part of amounts that the auditor adds to the debits. -/
def debitsOf (amounts : List Int) : Int := -(amounts.filter fun n => n < 0).sum

lemma creditsOf_append (xs ys : List Int) : creditsOf (xs ++ ys) = creditsOf xs + creditsOf ys := by
  simp [creditsOf]

lemma debitsOf_append (xs ys : List Int) : debitsOf (xs ++ ys) = debitsOf xs + debitsOf ys := by
  simp only [debitsOf, List.filter_append, List.sum_append]
  omega

/-- Credits and debits differ by the sum of the amounts. -/
lemma creditsOf_sub_debitsOf (amounts : List Int) :
    creditsOf amounts - debitsOf amounts = amounts.sum := by
  induction amounts with
  | nil => rfl
  | cons n amounts ih =>
    simp only [creditsOf, debitsOf, List.filter_cons, List.sum_cons] at ih ⊢
    by_cases hn : 0 ≤ n
    · have hlt : ¬ n < 0 := by omega
      simp only [hn, hlt, decide_true, decide_false, if_true, Bool.false_eq_true, if_false,
        List.sum_cons]
      omega
    · have hlt : n < 0 := by omega
      simp only [hn, hlt, decide_true, decide_false, if_true, Bool.false_eq_true, if_false,
        List.sum_cons]
      omega

/-- A zero amount is a credit of nothing. -/
lemma creditsOf_eq_pos (amounts : List Int) :
    creditsOf amounts = (amounts.filter fun n => 0 < n).sum := by
  induction amounts with
  | nil => rfl
  | cons n amounts ih =>
    unfold creditsOf at ih ⊢
    rcases lt_trichotomy n 0 with hn | rfl | hn
    · rw [List.filter_cons_of_neg (by simpa using hn), List.filter_cons_of_neg (by simp; omega), ih]
    · rw [List.filter_cons_of_pos (by simp), List.filter_cons_of_neg (by simp), List.sum_cons, ih,
        zero_add]
    · rw [List.filter_cons_of_pos (by simp; omega), List.filter_cons_of_pos (by simpa using hn),
        List.sum_cons, List.sum_cons, ih]

lemma Audit.addAmounts_eq (audit : Audit) (amounts : List Int) :
    audit.addAmounts amounts = { audit with
      credits := audit.credits + creditsOf amounts, debits := audit.debits + debitsOf amounts } := by
  induction amounts generalizing audit with
  | nil => simp [Audit.addAmounts, creditsOf, debitsOf]
  | cons n amounts ih =>
    unfold Audit.addAmounts at ih ⊢
    rw [List.foldl_cons, ih]
    by_cases hn : n ≥ 0
    · have hlt : ¬ n < 0 := by omega
      simp [hn, hlt, creditsOf, debitsOf, add_assoc]
    · have hlt : n < 0 := by omega
      simp [hn, hlt, creditsOf, debitsOf]
      omega

/-- The event moves money. -/
def StoredEvent.isPosting (e : StoredEvent) : Bool := e.eventType ∈ POSTING_EVENTS

/-- The reader accepts the event's postings. -/
def StoredEvent.isReadable (e : StoredEvent) : Bool := (readPostings e.payload).isOk

/-- The amounts that the auditor adds up for an event. -/
def StoredEvent.auditedAmounts (e : StoredEvent) : List Int :=
  match e.isPosting, postingAmounts e with
  | true, .ok (some amounts) => amounts
  | _, _ => []

/-- The event is a money event that the reader does not accept. -/
def StoredEvent.isInvalid (e : StoredEvent) : Bool := e.isPosting && !e.isReadable

/-- The payload of the event is a JSON object. -/
def StoredEvent.HasObject (e : StoredEvent) : Prop := ∃ fields, e.payload = .obj fields

/-- The reader accepts an event when it reads amounts from it. -/
lemma isReadable_iff (e : StoredEvent) : e.isReadable = true ↔ ∃ amounts, ReadsAmounts e amounts := by
  unfold StoredEvent.isReadable ReadsAmounts
  cases hread : readPostings e.payload with
  | error message => simp [Except.isOk, Except.toBool]
  | ok postings =>
    obtain ⟨json, hjson, hrest⟩ := except_bind_ok.mp hread
    have hbalanced : assertBalancedPostings postings = .ok () := by
      split at hrest
      · obtain ⟨ps, hps, hrest⟩ := except_bind_ok.mp hrest
        obtain ⟨⟨⟩, hbalanced, heq⟩ := except_bind_ok.mp hrest
        cases heq
        exact hbalanced
      · cases hrest
    obtain ⟨-, amounts, hamounts, -⟩ := (assertBalancedPostings_ok postings).mp hbalanced
    simp [Except.isOk, Except.toBool, hamounts]

/-- One round of the loop. -/
lemma Audit.next_eq (audit : Audit) {e : StoredEvent} (he : e.HasObject) :
    audit.next e = .ok
      { credits := audit.credits + creditsOf e.auditedAmounts
        debits := audit.debits + debitsOf e.auditedAmounts
        transactionCount := audit.transactionCount + if e.isPosting then 1 else 0
        invalidTransactionEventIds := audit.invalidTransactionEventIds ++
          if e.isInvalid then [e.eventId] else [] } := by
  obtain ⟨fields, hobject⟩ := he
  by_cases hposting : e.eventType ∈ POSTING_EVENTS
  · have hisPosting : e.isPosting = true := by simpa [StoredEvent.isPosting] using hposting
    have haudited : ∃ r, postingAmounts e = .ok r := by
      unfold postingAmounts
      rw [hobject]
      simp only [Json.access, bind, Except.bind]
      split
      · split_ifs <;> exact ⟨_, rfl⟩
      · exact ⟨_, rfl⟩
    obtain ⟨r, hr⟩ := haudited
    unfold Audit.next
    rw [if_neg (not_not.mpr hposting), hr]
    have hreads : ∀ amounts, ReadsAmounts e amounts ↔ r = some amounts ∧ amounts.sum = 0 := by
      intro amounts
      rw [readsAmounts_iff hobject, hr, Except.ok.injEq]
    have hreadable := isReadable_iff e
    simp only [hreads] at hreadable
    cases r with
    | none =>
      have hnot : e.isReadable = false := by simpa using hreadable
      simp [StoredEvent.auditedAmounts, StoredEvent.isInvalid, hisPosting, hnot, hr, bind,
        Except.bind, pure, Except.pure, creditsOf, debitsOf]
    | some amounts =>
      by_cases hsum : amounts.sum = 0
      · have hyes : e.isReadable = true := by simpa [hsum] using hreadable
        simp [StoredEvent.auditedAmounts, StoredEvent.isInvalid, hisPosting, hyes, hr, bind,
          Except.bind, pure, Except.pure, hsum, Audit.addAmounts_eq]
      · have hnot : e.isReadable = false := by simpa [hsum] using hreadable
        simp [StoredEvent.auditedAmounts, StoredEvent.isInvalid, hisPosting, hnot, hr, bind,
          Except.bind, pure, Except.pure, hsum, Audit.addAmounts_eq]
  · have hisPosting : e.isPosting = false := by simpa [StoredEvent.isPosting] using hposting
    unfold Audit.next
    rw [if_pos hposting]
    simp [StoredEvent.auditedAmounts, StoredEvent.isInvalid, hisPosting, creditsOf, debitsOf]

/-- The result of the auditor's loop. -/
lemma audit_eq {events : List StoredEvent} (hevents : ∀ e ∈ events, e.HasObject) (audit : Audit) :
    events.foldlM Audit.next audit = .ok
      { credits := audit.credits + creditsOf (events.flatMap (·.auditedAmounts))
        debits := audit.debits + debitsOf (events.flatMap (·.auditedAmounts))
        transactionCount := audit.transactionCount + (events.filter (·.isPosting)).length
        invalidTransactionEventIds := audit.invalidTransactionEventIds ++
          (events.filter (·.isInvalid)).map (·.eventId) } := by
  induction events generalizing audit with
  | nil => simp [creditsOf, debitsOf, pure, Except.pure]
  | cons e events ih =>
    have hrest := ih fun e' he' => hevents e' (List.mem_cons_of_mem _ he')
    rw [List.foldlM_cons, audit.next_eq (hevents e List.mem_cons_self)]
    refine (hrest _).trans (congrArg Except.ok ?_)
    rw [List.flatMap_cons, creditsOf_append, debitsOf_append, List.filter_cons, List.filter_cons]
    cases hposting : e.isPosting <;> cases hinvalid : e.isInvalid <;>
      simp [add_comm, add_left_comm]

/-! ### What the report says -/

/-- The amounts of the postings that replay reads from an event. -/
def StoredEvent.amounts (e : StoredEvent) : List Int :=
  match readPostings e.payload with
  | .ok postings => postings.filterMap fun posting => (parseMinorUnits posting.amountMinor).toOption
  | .error _ => []

/-- The sum of the positive postings of some events. -/
def positivePostings (events : List StoredEvent) : Int :=
  (((events.filter (·.isPosting)).flatMap (·.amounts)).filter fun n => 0 < n).sum

/-- The report lists exactly the money events that the reader does not accept, counts the money
events, and is balanced exactly when it lists none; then both totals are the sum of the positive
postings. -/
structure GlobalReconciliation.Exact (r : GlobalReconciliation) (events : List StoredEvent) :
    Prop where
  invalid_ids : r.invalidTransactionEventIds = (events.filter (·.isInvalid)).map (·.eventId)
  valid_iff : (events.map (·.eventId)).Nodup → ∀ e ∈ events, e.isPosting = true →
    (e.eventId ∉ r.invalidTransactionEventIds ↔ ∃ postings, readPostings e.payload = .ok postings)
  count : r.transactionCount = (events.filter (·.isPosting)).length
  balanced_iff : r.balanced = true ↔ r.invalidTransactionEventIds = []
  totals : r.balanced = true → r.creditsMinor = toString (positivePostings events) ∧
    r.debitsMinor = toString (positivePostings events)

/-- Amounts that are read one by one. -/
lemma filterMap_of_parseAmounts {postings : List Posting} {amounts : List Int}
    (h : parseAmounts postings = .ok amounts) :
    (postings.filterMap fun posting => (parseMinorUnits posting.amountMinor).toOption) = amounts := by
  induction postings generalizing amounts with
  | nil =>
    cases h
    rfl
  | cons posting postings ih =>
    obtain ⟨n, rest, hn, hrest, rfl⟩ := mapM_cons_ok.mp h
    have htail := ih hrest
    rw [List.filterMap_cons, hn]
    exact congrArg (List.cons n) htail

/-- Of a money event that the reader accepts, the auditor adds up what the reader reads, and this is
balanced. -/
lemma auditedAmounts_of_readable {e : StoredEvent} (he : e.HasObject) (hposting : e.isPosting = true)
    (hreadable : e.isReadable = true) :
    e.auditedAmounts = e.amounts ∧ e.auditedAmounts.sum = 0 := by
  obtain ⟨fields, hobject⟩ := he
  obtain ⟨amounts, hreads⟩ := (isReadable_iff e).mp hreadable
  obtain ⟨haudit, hsum⟩ := (readsAmounts_iff hobject).mp hreads
  obtain ⟨postings, hread, hamounts⟩ := hreads
  have haudited : e.auditedAmounts = amounts := by
    simp [StoredEvent.auditedAmounts, hposting, haudit]
  have hread' : e.amounts = amounts := by
    simp only [StoredEvent.amounts, hread]
    exact filterMap_of_parseAmounts hamounts
  exact ⟨haudited.trans hread'.symm, haudited ▸ hsum⟩

/-- When no event is invalid, what the auditor adds up are the postings, and they are balanced. -/
lemma auditedAmounts_of_valid {events : List StoredEvent} (hevents : ∀ e ∈ events, e.HasObject)
    (hvalid : ∀ e ∈ events, e.isInvalid = false) :
    events.flatMap (·.auditedAmounts) = (events.filter (·.isPosting)).flatMap (·.amounts) ∧
      (events.flatMap (·.auditedAmounts)).sum = 0 := by
  induction events with
  | nil => exact ⟨rfl, rfl⟩
  | cons e events ih =>
    obtain ⟨heq, hsum⟩ := ih (fun e' he' => hevents e' (List.mem_cons_of_mem _ he'))
      fun e' he' => hvalid e' (List.mem_cons_of_mem _ he')
    have hinvalid := hvalid e List.mem_cons_self
    rw [List.flatMap_cons, List.sum_append, hsum, add_zero, heq]
    cases hposting : e.isPosting with
    | false =>
      have hnone : e.auditedAmounts = [] := by simp [StoredEvent.auditedAmounts, hposting]
      rw [List.filter_cons_of_neg (by simp [hposting]), hnone]
      exact ⟨rfl, rfl⟩
    | true =>
      have hreadable : e.isReadable = true := by
        simpa [StoredEvent.isInvalid, hposting] using hinvalid
      obtain ⟨hamounts, hzero⟩ :=
        auditedAmounts_of_readable (hevents e List.mem_cons_self) hposting hreadable
      rw [List.filter_cons_of_pos hposting, List.flatMap_cons, ← hamounts]
      exact ⟨rfl, hzero⟩

lemma mem_inPeriod {start stop : Int} {events : List StoredEvent} {e : StoredEvent} :
    e ∈ inPeriod start stop events ↔
      e ∈ events ∧ start ≤ e.createdAt ∧ e.createdAt ≤ stop := by
  simp [inPeriod, List.mem_filter]

/-- The report on some events in closed form. -/
def reportOf (start stop : Int) (events : List StoredEvent) : GlobalReconciliation :=
  { start, stop, transactionCount := (events.filter (·.isPosting)).length
    creditsMinor := toString (creditsOf (events.flatMap (·.auditedAmounts)))
    debitsMinor := toString (debitsOf (events.flatMap (·.auditedAmounts)))
    invalidTransactionEventIds := (events.filter (·.isInvalid)).map (·.eventId)
    balanced := ((events.filter (·.isInvalid)).map (·.eventId)).isEmpty ∧
      creditsOf (events.flatMap (·.auditedAmounts)) = debitsOf (events.flatMap (·.auditedAmounts)) }

lemma reconcileGlobal_eq (db : Database) (hobjects : ∀ e ∈ db.events, e.HasObject)
    (start stop : Option Int) :
    reconcileGlobal db start stop = .ok (reportOf (start.getD 0) (stop.getD END_OF_TIME)
      (inPeriod (start.getD 0) (stop.getD END_OF_TIME) db.events)) := by
  have hobjects' : ∀ e ∈ inPeriod (start.getD 0) (stop.getD END_OF_TIME) db.events, e.HasObject :=
    fun e he => hobjects e (mem_inPeriod.mp he).1
  unfold reconcileGlobal
  dsimp only
  rw [audit_eq hobjects']
  simp [bind, Except.bind, pure, Except.pure, reportOf]

/-- The report is exact on events whose payloads are objects. -/
lemma reportOf_exact {events : List StoredEvent} (hobjects : ∀ e ∈ events, e.HasObject)
    (start stop : Int) : (reportOf start stop events).Exact events := by
  have hbalanced : ((events.filter (·.isInvalid)).map (·.eventId)) = [] →
      creditsOf (events.flatMap (·.auditedAmounts)) = positivePostings events ∧
        debitsOf (events.flatMap (·.auditedAmounts)) = positivePostings events := by
    intro hnil
    have hvalid : ∀ e ∈ events, e.isInvalid = false := by
      rw [List.map_eq_nil_iff] at hnil
      intro e he
      simpa using List.filter_eq_nil_iff.mp hnil e he
    obtain ⟨heq, hsum⟩ := auditedAmounts_of_valid hobjects hvalid
    have hdiff := creditsOf_sub_debitsOf (events.flatMap (·.auditedAmounts))
    have hcredits : creditsOf (events.flatMap (·.auditedAmounts)) = positivePostings events := by
      rw [creditsOf_eq_pos, heq]
      rfl
    refine ⟨hcredits, ?_⟩
    omega
  constructor
  case invalid_ids => rfl
  case valid_iff =>
    intro hnodup e he hposting
    have hreadable : (∃ postings, readPostings e.payload = .ok postings) ↔
        e.isReadable = true := by
      unfold StoredEvent.isReadable
      cases readPostings e.payload <;> simp [Except.isOk, Except.toBool]
    rw [hreadable]
    constructor
    · intro hnot
      by_contra hunreadable
      refine hnot (List.mem_map.mpr ⟨e, List.mem_filter.mpr ⟨he, ?_⟩, rfl⟩)
      simpa [StoredEvent.isInvalid, hposting] using hunreadable
    · intro hread hmem
      obtain ⟨e', he', hid⟩ := List.mem_map.mp hmem
      obtain ⟨he', hinvalid⟩ := List.mem_filter.mp he'
      obtain rfl := List.inj_on_of_nodup_map hnodup he' he hid
      simp [StoredEvent.isInvalid, hread] at hinvalid
  case count => rfl
  case balanced_iff =>
    simp only [reportOf, decide_eq_true_eq, List.isEmpty_iff]
    refine ⟨fun h => h.1, fun hnil => ⟨hnil, ?_⟩⟩
    obtain ⟨hcredits, hdebits⟩ := hbalanced hnil
    exact hcredits.trans hdebits.symm
  case totals =>
    intro hr
    simp only [reportOf, decide_eq_true_eq, List.isEmpty_iff] at hr
    obtain ⟨hcredits, hdebits⟩ := hbalanced hr.1
    exact ⟨congrArg toString hcredits, congrArg toString hdebits⟩

/-! ### Journals of the wallet commands -/

/-- Only objects have properties. -/
lemma access_some {j : Json} {key : String} {value : Json} (h : j.access key = .ok (some value)) :
    ∃ fields, j = .obj fields := by
  cases j with
  | obj fields => exact ⟨fields, rfl⟩
  | null => cases h
  | bool b => cases h
  | num n => cases h
  | str s => cases h
  | arr xs => cases h

/-- An event that replay accepts has an object, and readable postings when it moves money. -/
lemma apply_readable {a a' : WalletAggregate} {e : StoredEvent} (h : a.apply e = .ok a') :
    e.HasObject ∧ e.isInvalid = false := by
  have hreadable : ∀ {postings}, readPostings e.payload = .ok postings →
      e.HasObject ∧ e.isInvalid = false := by
    intro postings hread
    refine ⟨?_, by simp [StoredEvent.isInvalid, StoredEvent.isReadable, hread, Except.isOk,
      Except.toBool]⟩
    obtain ⟨json, hjson, hrest⟩ := except_bind_ok.mp hread
    cases json with
    | none => cases hrest
    | some value => exact access_some hjson
  have hhold : ∀ {holdId}, readHoldId e.payload = .ok holdId → e.HasObject := by
    intro holdId hread
    obtain ⟨json, hjson, hrest⟩ := except_bind_ok.mp hread
    cases json with
    | none => cases hrest
    | some value => exact access_some hjson
  have hother : e.eventType ∉ POSTING_EVENTS → e.isInvalid = false := by
    intro hnot
    simp [StoredEvent.isInvalid, StoredEvent.isPosting, hnot]
  have happlied := (apply_ok h).2
  cases happlied with
  | created ownerId currency ht =>
    refine ⟨?_, hother (by rw [ht]; decide)⟩
    unfold WalletAggregate.apply at h
    split_ifs at h with h₁ h₂
    obtain ⟨createdCurrency, -, h⟩ := except_bind_ok.mp h
    split_ifs at h
    obtain ⟨owner, howner, h⟩ := except_bind_ok.mp h
    cases owner with
    | none => cases h
    | some value => exact access_some howner
  | money postings posting n ht hread => exact hreadable hread
  | held holdId n ht hread =>
    obtain ⟨id, hid, -⟩ := except_bind_ok.mp hread
    exact ⟨hhold hid, hother (by rw [ht]; decide)⟩
  | released holdId n ht hread => exact ⟨hhold hread, hother (by rw [ht]; decide)⟩
  | consumed holdId n postings posting ht hid hlookup hread => exact hreadable hread

/-- The events of a stream that can be replayed are readable. -/
lemma rehydrate_readable {walletId : String} {events : List StoredEvent} {a : WalletAggregate}
    (h : rehydrate walletId events = .ok a) :
    ∀ e ∈ events, e.HasObject ∧ e.isInvalid = false := by
  induction events using List.reverseRecOn generalizing a with
  | nil => simp
  | append_singleton events e ih =>
    rw [rehydrate_concat] at h
    obtain ⟨b, hb, happly⟩ := except_bind_ok.mp h
    intro e' he'
    rcases List.mem_append.mp he' with he' | he'
    · exact ih hb e' he'
    · rw [List.mem_singleton.mp he']
      exact apply_readable happly

/-- Every event of consistent tables is readable. -/
lemma Consistent.readable {db : Database} (h : Consistent db) :
    ∀ e ∈ db.events, e.HasObject ∧ e.isInvalid = false := by
  intro e he
  obtain ⟨wallet, hwallet, hid⟩ := h.streams e he
  obtain ⟨a, ha, -⟩ := h.aggregate wallet hwallet
  exact rehydrate_readable ha e (List.mem_filter.mpr ⟨he, by simp [hid]⟩)

/-- The auditor reports exactly the bad journal entries of every period, whatever objects the
payloads are; and after any run of wallet commands it finds every period balanced. -/
theorem global_reconciliation_exact :
    (∀ db : Database, (∀ e ∈ db.events, e.HasObject) → ∀ start stop, ∃ r,
      reconcileGlobal db start stop = .ok r ∧
        r.Exact (inPeriod (start.getD 0) (stop.getD END_OF_TIME) db.events)) ∧
    ∀ (setting : Setting) (users : List User) (s : LedgerSys),
      Reaches (ledger setting) (Sys.init (.initial users)) s → ∀ start stop, ∃ r,
        reconcileGlobal s.world.db start stop = .ok r ∧ r.balanced = true := by
  have hexact : ∀ db : Database, (∀ e ∈ db.events, e.HasObject) → ∀ start stop, ∃ r,
      reconcileGlobal db start stop = .ok r ∧
        r.Exact (inPeriod (start.getD 0) (stop.getD END_OF_TIME) db.events) :=
    fun db hobjects start stop => ⟨_, reconcileGlobal_eq db hobjects start stop,
      reportOf_exact (fun e he => hobjects e (mem_inPeriod.mp he).1) _ _⟩
  refine ⟨hexact, fun setting users s hs start stop => ?_⟩
  have hreadable := (reaches_ok hs).inv.1.readable
  obtain ⟨r, hr, hreport⟩ := hexact s.world.db (fun e he => (hreadable e he).1) start stop
  refine ⟨r, hr, hreport.balanced_iff.mpr ?_⟩
  rw [hreport.invalid_ids, List.map_eq_nil_iff]
  refine List.filter_eq_nil_iff.mpr fun e he => ?_
  simp [(hreadable e (mem_inPeriod.mp he).1).2]

/-- A journal whose second deposit is not balanced. -/
def corruptJournal : Database :=
  let event (eventId amountMinor : String) : StoredEvent :=
    { eventId, streamId := "w", aggregateType := "Wallet", eventType := MONEY_DEPOSITED,
      schemaVersion := 1, streamVersion := 2, metadata := .obj [], correlationId := none,
      traceId := none, createdAt := 0,
      payload := .obj [("postings", .arr [Posting.toJson ⟨walletAccountId "w", "100"⟩,
        Posting.toJson ⟨EXTERNAL_CLEARING_ACCOUNT, amountMinor⟩])] }
  { Database.initial [] with events := [event "deposit" "-100", event "corrupt" "-99"] }

theorem global_reconciliation_exact_corrupt : ∃ r, reconcileGlobal corruptJournal none none = .ok r ∧
    r.invalidTransactionEventIds = ["corrupt"] ∧ r.balanced ≠ true := by
  obtain ⟨r, hr, hreport⟩ := global_reconciliation_exact.1 corruptJournal
    (by simp [corruptJournal, StoredEvent.HasObject]) none none
  have hids : r.invalidTransactionEventIds = ["corrupt"] := by
    rw [hreport.invalid_ids]
    decide +kernel
  refine ⟨r, hr, hids, fun hbalanced => ?_⟩
  rw [hreport.balanced_iff.mp hbalanced] at hids
  cases hids

end Ledger

end PeerLedger
