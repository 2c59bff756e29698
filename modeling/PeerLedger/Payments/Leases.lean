import PeerLedger.Payments.Soundness
import PeerLedger.Payments.Scripts

/-!
# Leases and ledger requests

A run should ask the ledger for something only after its `claim` has written the run's own lease on
the row, and should do nothing when its claim has matched none.  `claim` tells a claim that matched no
row by an empty array, but for an `UPDATE` the driver's array holds the rows and their count and is
never empty; the run then goes on with the row that it reads.  The updates of the row are fenced and
match nothing, but in some states of the row (`exposed`) the run asks the ledger first, and does so
without the lease (`request_without_lease`), or it records a failure, which throws `SagaLeaseLostError`
out of the run.

As long as no run reads such a row after a claim that matched none, requests are sent, and rows are
changed, under the lease only, and the other runs do nothing (`requests_under_lease`).
-/

namespace PeerLedger

namespace Payments

open Transactions

/-- The last claim of thread `i` in the log, which starts from `db`, wrote a lease of its own on the
row of the transfer; the row was not terminal then, due, and under no lease that had not expired. -/
def LeaseTaken (setting : Setting) (db : Database) (job : Job) (log : List PaymentsCommit) (i : Nat)
    (transferId : String) : Prop :=
  ∃ before c after row n, log = before ++ c :: after ∧ c.thread = i ∧
    (∃ raw, c.reply = .claimed raw) ∧ row ∈ (db.after before).transfers ∧ row.id = transferId ∧
    claimable job.command.now row = true ∧ savedRow c.writes = some (leasedRow setting job n row) ∧
    ∀ c' ∈ after, c'.thread = i → ∀ raw, c'.reply ≠ .claimed raw

/-- The last claim of thread `i` in the log matched no row. -/
def Unmatched (log : List PaymentsCommit) (i : Nat) : Prop :=
  ∃ before c after, log = before ++ c :: after ∧ c.thread = i ∧ (∃ raw, c.reply = .claimed raw) ∧
    savedRow c.writes = none ∧ ∀ c' ∈ after, c'.thread = i → ∀ raw, c'.reply ≠ .claimed raw

/-- A commit with which no run gets to know an exposed row that its claim did not lease. -/
def readsUnexposed (config : Config) (w : World) (c : PaymentsCommit) : Bool :=
  match c.reply with
  | .found row => (w.claimOf c.thread).wrote.any (fun leased => leased.id = row.id) ||
      !(w.jobs c.thread).any fun job => exposed config job.command.now row
  | _ => true

/-- The runs in which no run reads an exposed row after a claim that matched none. -/
def Setting.readingUnexposed (setting : Setting) : Setting :=
  { setting with
    admits := fun w pending c =>
      setting.admits w pending c ∧ readsUnexposed setting.config w c = true }

/-- Requests are sent, and rows are changed, under the lease only, and a run whose claim matched no row
does nothing; `db` are the contents at the start. -/
structure UnderLease (setting : Setting) (db : Database) (s : System) : Prop where
  /-- A thread that sends a request about a transfer has taken the lease of its row. -/
  sends : ∀ i command k, s.threads i = .run (.call (.fetch command) k) →
    ∃ job transferId, s.world.jobs i = some job ∧ transferOf command = some transferId ∧
      LeaseTaken setting db job s.world.log i transferId
  /-- Besides claims, every commit that changed a row was made by a thread that had taken the lease of
  that row. -/
  writes : ∀ before c after, s.world.log = before ++ c :: after →
    (∀ raw, c.reply ≠ .claimed raw) → ∀ row, Write.saveTransfer row ∈ c.writes →
    ∃ job, s.world.jobs c.thread = some job ∧ LeaseTaken setting db job before c.thread row.id
  /-- After a claim that matched no row a thread sends no request. -/
  silent : ∀ i, Unmatched s.world.log i →
    ∀ command k, s.threads i ≠ .run (.call (.fetch command) k)
  /-- Nor does it change a row. -/
  keeps : ∀ before c after, s.world.log = before ++ c :: after → Unmatched before c.thread →
    (∀ raw, c.reply ≠ .claimed raw) → ∀ row, Write.saveTransfer row ∉ c.writes
  /-- Nor does a run reject then, unless a statement has failed by itself or the id names no
  transfer: it returns. -/
  returns : (∀ e, ¬ setting.fails e) → ∀ i job e, s.world.jobs i = some job →
    job.command.isRun = true → Unmatched s.world.log i →
    s.threads i = .run (.done (.error e)) → e = .entityNotFound "Transfer"

/-! ### The invariant -/

/-- What is known of the claims of all threads. -/
structure ClaimsKnown (setting : Setting) (db : Database) (w : World) : Prop where
  db_eq : w.db = db.after w.log
  wrote : ∀ i row, (w.claimOf i).wrote = some row →
    ∃ job, w.jobs i = some job ∧ LeaseTaken setting db job w.log i row.id
  found : ∀ i row job, (w.claimOf i).found = some row → w.jobs i = some job →
    exposed setting.config job.command.now row = true → (w.claimOf i).Wrote row.id
  writes : ∀ before c after, w.log = before ++ c :: after →
    (∀ raw, c.reply ≠ .claimed raw) → ∀ row, Write.saveTransfer row ∈ c.writes →
    ∃ job, w.jobs c.thread = some job ∧ LeaseTaken setting db job before c.thread row.id
  threads : ∀ c ∈ w.log, w.jobs c.thread ≠ none

section Invariant

variable {setting : Setting} {db : Database} {w : World} {job : Job} {i : Nat}

/-- Later commits, claims of the thread apart, leave its lease the last one taken. -/
lemma LeaseTaken.append {log : List PaymentsCommit} {c : PaymentsCommit} {t : String}
    (h : LeaseTaken setting db job log i t) (hc : c.thread = i → ∀ raw, c.reply ≠ .claimed raw) :
    LeaseTaken setting db job (log ++ [c]) i t := by
  obtain ⟨before, c₀, after, row, n, rfl, hi, hraw, hrow, hid, hclaim, hsaved, hlast⟩ := h
  refine ⟨before, c₀, after ++ [c], row, n, by simp, hi, hraw, hrow, hid, hclaim, hsaved, ?_⟩
  intro c' hc'
  rcases List.mem_append.mp hc' with hc' | hc'
  · exact hlast c' hc'
  · obtain rfl := List.mem_singleton.mp hc'
    exact hc

/-- A thread has one last claim: if it has taken a lease, then the claim has matched a row. -/
lemma LeaseTaken.not_unmatched {log : List PaymentsCommit} {t : String}
    (h : LeaseTaken setting db job log i t) : ¬ Unmatched log i := by
  obtain ⟨before, c, after, row, n, rfl, hi, ⟨raw, hraw⟩, -, -, -, hsaved, hlast⟩ := h
  rintro ⟨before', c', after', hlog, hi', ⟨raw', hraw'⟩, hnone, hlast'⟩
  rcases List.append_eq_append_iff.mp hlog with ⟨between, -, hafter⟩ | ⟨between, -, hafter⟩
  · cases between with
    | nil =>
      obtain ⟨rfl, -⟩ := List.cons.inj hafter
      rw [hsaved] at hnone
      cases hnone
    | cons c₁ between =>
      obtain ⟨-, rfl⟩ := List.cons.inj hafter
      exact hlast c' (by simp) hi' raw' hraw'
  · cases between with
    | nil =>
      obtain ⟨rfl, -⟩ := List.cons.inj hafter
      rw [hsaved] at hnone
      cases hnone
    | cons c₁ between =>
      obtain ⟨-, rfl⟩ := List.cons.inj hafter
      exact hlast' c (by simp) hi raw hraw

/-- Commits that are no claims keep the lease that was written. -/
lemma Claim.next_wrote (claim : Claim) {c : PaymentsCommit} (h : ∀ raw, c.reply ≠ .claimed raw) :
    (claim.next c).wrote = claim.wrote := by
  unfold Claim.next
  split
  · next raw heq => exact absurd heq (h raw)
  · rfl
  · rfl

/-- The claims after a commit. -/
lemma ClaimsKnown.commit {c : PaymentsCommit} (h : ClaimsKnown setting db w)
    (hd : setting.DistinctOwners) (hjob : w.jobs c.thread = some job)
    (hmove : Move setting w job c.body c.writes) (hlease : ClaimLeases setting w job c)
    (hread : readsUnexposed setting.config w c = true) :
    ClaimsKnown setting db ((payments setting).commit w c) := by
  have hlog : ((payments setting).commit w c).log = w.log ++ [c] := rfl
  constructor
  case db_eq =>
    change view w.db c.writes = db.after (w.log ++ [c])
    rw [Database.after_concat, h.db_eq]
  case wrote =>
    intro i row hrow
    rw [claimOf_commit] at hrow
    rw [hlog]
    by_cases hi : c.thread = i
    · subst hi
      rw [if_pos rfl] at hrow
      by_cases hraw : ∃ raw, c.reply = .claimed raw
      · -- the claim itself
        obtain ⟨raw, hraw⟩ := hraw
        have hsaved : savedRow c.writes = some row := by
          simpa only [Claim.next, hraw] using hrow
        obtain ⟨old, hold, n, hclaim, rfl⟩ := hlease.lease raw row hraw hsaved
        exact ⟨job, hjob, w.log, c, [], old, n, rfl, rfl, ⟨raw, hraw⟩, h.db_eq ▸ hold, rfl, hclaim,
          hsaved, (fun _ hmem => nomatch hmem)⟩
      · have hraw' : ∀ raw, c.reply ≠ .claimed raw := fun raw heq => hraw ⟨raw, heq⟩
        rw [Claim.next_wrote _ hraw'] at hrow
        obtain ⟨job', hjob', htaken⟩ := h.wrote c.thread row hrow
        exact ⟨job', hjob', htaken.append fun _ => hraw'⟩
    · rw [if_neg hi] at hrow
      obtain ⟨job', hjob', htaken⟩ := h.wrote i row hrow
      exact ⟨job', hjob', htaken.append fun heq => absurd heq hi⟩
  case found =>
    intro i row job' hfound hjob' hexp
    rw [claimOf_commit] at hfound ⊢
    by_cases hi : c.thread = i
    · subst hi
      rw [if_pos rfl] at hfound ⊢
      obtain rfl : job = job' := Option.some.inj (hjob.symm.trans hjob')
      cases hreply : c.reply with
      | claimed raw => simp [Claim.next, hreply] at hfound
      | found row' =>
        obtain rfl : row' = row := by simpa [Claim.next, hreply] using hfound
        -- an exposed row was read, so that the claim had matched it
        simp only [readsUnexposed, hreply, hjob, Option.any_some, hexp, Bool.not_true,
          Bool.or_false, Option.any_eq_true_iff_get, decide_eq_true_eq] at hread
        obtain ⟨hsome, hid⟩ := hread
        refine ⟨_, ?_, hid⟩
        simp [Claim.next, hreply]
      | affected count =>
        rw [Claim.next_eq _ (by simp [hreply])] at hfound ⊢
        exact h.found _ row job hfound hjob hexp
      | transfer row' =>
        rw [Claim.next_eq _ (by simp [hreply])] at hfound ⊢
        exact h.found _ row job hfound hjob hexp
    · rw [if_neg hi] at hfound ⊢
      exact h.found i row job' hfound hjob' hexp
  case writes =>
    intro before c' after hsplit hraw row hmem
    rw [hlog] at hsplit
    rcases split_concat hsplit with ⟨rfl, rfl, rfl⟩ | ⟨after, hlog'⟩
    · obtain ⟨leased, hleased, hid⟩ := hlease.saves hd hraw row (hmove.savedRow_eq hmem)
      obtain ⟨job', hjob', htaken⟩ := h.wrote _ leased hleased
      exact ⟨job', hjob', hid ▸ htaken⟩
    · exact h.writes before c' after hlog' hraw row hmem
  case threads =>
    intro c' hc'
    rcases List.mem_append.mp hc' with hc' | hc'
    · exact h.threads c' hc'
    · obtain rfl := List.mem_singleton.mp hc'
      exact hjob ▸ Option.some_ne_none job

/-- A thread without a job has claimed nothing. -/
lemma ClaimsKnown.claimOf_none (h : ClaimsKnown setting db w) (hnone : w.jobs i = none) :
    w.claimOf i = { wrote := none, found := none } := by
  have hnil : (w.log.filter fun c => c.thread = i) = [] := by
    refine List.filter_eq_nil_iff.mpr fun c hc heq => h.threads c hc ?_
    rw [of_decide_eq_true heq]
    exact hnone
  rw [World.claimOf, hnil]
  rfl

/-- The claims after a thread has started. -/
lemma ClaimsKnown.start {command : Command} {draw : Draw} (h : ClaimsKnown setting db w)
    (hnone : w.jobs i = none) : ClaimsKnown setting db (w.start i command draw) := by
  have hjobs : ∀ j job, w.jobs j = some job → (w.start i command draw).jobs j = some job := by
    intro j job hj
    have hne : j ≠ i := fun heq => by rw [heq, hnone] at hj; cases hj
    exact (Function.update_of_ne hne _ _).trans hj
  constructor
  case db_eq => exact h.db_eq
  case wrote =>
    intro j row hrow
    obtain ⟨job, hj, htaken⟩ := h.wrote j row hrow
    exact ⟨job, hjobs j job hj, htaken⟩
  case found =>
    intro j row job hfound hj hexp
    change (w.claimOf j).found = some row at hfound
    have hne : j ≠ i := fun heq => by
      rw [heq, h.claimOf_none hnone] at hfound
      cases hfound
    exact h.found j row job hfound ((Function.update_of_ne hne _ _).symm.trans hj) hexp
  case writes =>
    intro before c after hlog hraw row hmem
    obtain ⟨job, hj, htaken⟩ := h.writes before c after hlog hraw row hmem
    exact ⟨job, hjobs _ job hj, htaken⟩
  case threads =>
    intro c hc hnone'
    obtain ⟨job, hj⟩ := Option.ne_none_iff_exists'.mp (h.threads c hc)
    rw [hjobs _ job hj] at hnone'
    cases hnone'

/-- The claims do not depend on the ledger and the network. -/
lemma ClaimsKnown.of_eq {w' : World} (h : ClaimsKnown setting db w) (hdb : w'.db = w.db)
    (hlog : w'.log = w.log) (hjobs : w'.jobs = w.jobs) : ClaimsKnown setting db w' := by
  obtain ⟨db', log', jobs', sent', ledger', origin'⟩ := w'
  dsimp only at hdb hlog hjobs
  subst hdb hlog hjobs
  exact ⟨h.db_eq, h.wrote, h.found, h.writes, h.threads⟩

/-- What is known of the claims in every reachable state of the restricted runs. -/
lemma claims_known {users : List Ledger.User} {s : System} (hd : setting.DistinctOwners)
    (hreads : ∀ w pending c, setting.admits w pending c → readsUnexposed setting.config w c = true)
    (hs : Reaches (payments setting) (Sys.init (.initial users)) s) :
    ClaimsKnown setting Database.initial s.world := by
  have hinit : ClaimsKnown setting Database.initial (World.initial users) :=
    ⟨rfl, (fun _ _ h => nomatch h), (fun _ _ _ h => nomatch h),
      (fun _ _ _ h => by simp [World.initial] at h), fun _ h => nomatch h⟩
  refine reaches_invariant (reaches_ok .refl) hinit
    (fun w c job _ hw hadm hjob hmove hlease => ?_) (fun w command _ hw _ => ?_)
    (fun w i command draw _ hw hnone _ _ => ?_) (fun w w' _ hw hledger => ?_) hs
  · obtain ⟨pending, hadm⟩ := hadm
    exact hw.commit hd hjob hmove hlease (hreads w pending c hadm)
  · exact hw.of_eq rfl rfl rfl
  · exact hw.start hnone
  · cases hledger <;> exact hw.of_eq rfl rfl rfl

end Invariant

/-! ### Requests under the lease -/

/-- A thread that has read an exposed row, in the restricted runs, has the lease of that row. -/
lemma ClaimsKnown.taken {setting : Setting} {db : Database} {w : World} {job : Job} {i : Nat}
    {row : Transfer} (h : ClaimsKnown setting db w) (hfound : (w.claimOf i).found = some row)
    (hjob : w.jobs i = some job) (hexp : exposed setting.config job.command.now row = true) :
    LeaseTaken setting db job w.log i row.id := by
  obtain ⟨leased, hleased, hid⟩ := h.found i row job hfound hjob hexp
  obtain ⟨job', hjob', htaken⟩ := h.wrote i leased hleased
  obtain rfl : job = job' := Option.some.inj (hjob.symm.trans hjob')
  exact hid ▸ htaken

/-- In every run in which no run reads an exposed row after a claim that matched none, requests are
sent, and rows are changed, under the lease only, and the runs without a lease do nothing. -/
theorem requests_under_lease (setting : Setting) (users : List Ledger.User)
    (hd : setting.DistinctOwners) {s : System}
    (hs : Reaches (payments setting.readingUnexposed) (Sys.init (.initial users)) s) :
    UnderLease setting Database.initial s := by
  have hknown : ClaimsKnown setting.readingUnexposed Database.initial s.world :=
    claims_known hd (fun _ _ _ h => h.2) hs
  have hsends : ∀ i command k, s.threads i = .run (.call (.fetch command) k) →
      ∃ job transferId, s.world.jobs i = some job ∧ transferOf command = some transferId ∧
        LeaseTaken setting Database.initial job s.world.log i transferId := by
    intro i command k hi
    obtain ⟨-, hleased⟩ := (reaches_ok hs).callOk hi
    obtain ⟨transferId, hfor, hleased⟩ := hleased hd
    rcases hleased with ⟨row, hrow, hid⟩ | ⟨row, job, hfound, hid, hjob, hexp⟩
    · obtain ⟨job, hjob, htaken⟩ := hknown.wrote i row hrow
      exact ⟨job, transferId, hjob, hfor, hid ▸ htaken⟩
    · exact ⟨job, transferId, hjob, hfor, hid ▸ hknown.taken hfound hjob hexp⟩
  refine ⟨hsends, hknown.writes, ?silent, ?keeps, ?returns⟩
  case silent =>
    intro i hun command k hi
    obtain ⟨job, transferId, -, -, htaken⟩ := hsends i command k hi
    exact htaken.not_unmatched hun
  case keeps =>
    intro before c after hlog hun hraw row hmem
    obtain ⟨job, -, htaken⟩ := hknown.writes before c after hlog hraw row hmem
    exact htaken.not_unmatched hun
  case returns =>
    intro hfails i job e hjob hrun hun hi
    rcases ((reaches_ok hs).post hi).2 e job rfl hjob hrun with heq | hmay
    · exact heq
    · -- what would let the run reject is a lease
      rcases hmay hd hfails with ⟨row, hrow⟩ | ⟨row, hfound, hexp⟩
      · obtain ⟨job', -, htaken⟩ := hknown.wrote i row hrow
        exact absurd hun htaken.not_unmatched
      · exact absurd hun (hknown.taken hfound hjob hexp).not_unmatched

/-- Thread `i` is about to send a request. -/
def isSending (s : System) (i : Nat) : Bool :=
  match s.threads i with
  | .run (.call (.fetch _) _) => true
  | _ => false

lemma isSending_iff {s : System} {i : Nat} :
    isSending s i = true ↔ ∃ command k, s.threads i = .run (.call (.fetch command) k) := by
  unfold isSending
  constructor
  · intro h
    split at h
    · next command k hi => exact ⟨command, k, hi⟩
    · cases h
  · rintro ⟨command, k, hi⟩
    rw [hi]

/-- The scripts in which no run reads an exposed row after a claim that matched none. -/
def unexposedRun : Script scripted.readingUnexposed where
  draw := scriptedDraw
  ledgerDraw j := Ledger.drawFor (ledgerName j)
  test w c := readsUnexposed scripted.config w c
  ledgerTest _ _ := true
  serves _ := true
  owners _ := true
  loses _ _ := true
  draw_ok := scripted_draws
  uuid_ok _ _ := trivial
  test_ok _ _ h := ⟨trivial, h⟩
  serves_ok _ _ := trivial
  ledgerTest_ok _ _ _ := trivial
  owners_ok _ _ := ⟨trivial, fun _ => trivial⟩
  loses_ok _ _ _ := trivial

/-- A first run of a new transfer asks the ledger to validate it, under its lease. -/
theorem requests_under_lease_t : ∃ s,
    Reaches (payments scripted.readingUnexposed) (Sys.init (.initial Ledger.annAndBob)) s ∧
      isSending s 1 = true ∧ UnderLease scripted Database.initial s := by
  obtain ⟨s, hs, hsend⟩ := unexposedRun.exists_reaches Ledger.annAndBob
    (opening ++ [.start 1 (.run "t" 5), .breaker 1 false]) (fun s => isSending s 1)
    (by decide +kernel)
  exact ⟨s, hs, hsend, requests_under_lease scripted _ scripted_distinctOwners hs⟩

/-- Two runs of one transfer: the second one finds the row leased by the first, and asks the ledger
all the same. -/
theorem request_without_lease : ∃ s,
    Reaches (payments scripted) (Sys.init (.initial Ledger.annAndBob)) s ∧
      ¬ UnderLease scripted Database.initial s := by
  obtain ⟨s, hs, hp⟩ := scriptedRun.exists_reaches Ledger.annAndBob
    (opening ++ [.start 1 (.run "t" 5), .breaker 1 false, .start 2 (.run "t" 5), .breaker 2 false])
    (fun s => isSending s 2 && s.world.log.all fun c => c.thread ≠ 2 || (savedRow c.writes).isNone)
    (by decide +kernel)
  rw [Bool.and_eq_true, List.all_eq_true] at hp
  refine ⟨s, hs, fun h => ?_⟩
  obtain ⟨command, k, hi⟩ := isSending_iff.mp hp.1
  obtain ⟨job, transferId, -, -, before, c, after, row, n, hlog, hthread, -, -, -, -, hsaved, -⟩ :=
    h.sends 2 command k hi
  have hnone := hp.2 c (by simp [hlog])
  simp [hthread, hsaved] at hnone

end Payments

end PeerLedger
