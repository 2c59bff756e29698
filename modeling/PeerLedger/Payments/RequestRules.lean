import PeerLedger.Payments.SagaRules

/-!
# Requests keep the protocol

The rules of the programs that create transfers and split bills.  A request to create a transfer
returns a transfer that was made by the same request (`wp_createCanonical`), whichever of its checks,
its insert and its lookup after a lost race found it.
-/

namespace PeerLedger

namespace Payments

open Transactions

variable {setting : Setting} {w w' : World} {i n : Nat} {job : Job}

/-! ### New transfers -/

/-- What the insert of a transfer has checked. -/
lemma insertTransfer_fresh {row : Transfer} {db : Database} {ws : List Write}
    (h : insertTransfer row db = .ok ws) : ws = [.insertTransfer row] ∧ Fresh db row := by
  unfold insertTransfer at h
  split_ifs at h with _ _ hid hkey hshare hexists
  refine ⟨(Except.ok.inj h).symm, ⟨fun old hold heq => hid ?_, fun old hold hsender heq => hkey ?_,
    fun old hold shareId hrow heq => hshare ⟨by simp [hrow], ?_⟩, fun shareId hrow => ?_⟩⟩
  · exact List.any_eq_true.mpr ⟨old, hold, by simpa using heq⟩
  · exact List.any_eq_true.mpr ⟨old, hold, by simpa using ⟨hsender, heq⟩⟩
  · exact List.any_eq_true.mpr ⟨old, hold, by simp [heq, hrow]⟩
  · rw [hrow] at hexists
    simpa using hexists

/-- The worker's own insert of a new transfer. -/
lemma Serving.commit_insert {row : Transfer} (h : Serving setting w i job n)
    (body : PaymentsTx Reply) (hfresh : Fresh w.db row)
    (hnew : IsNew setting.config w.db job row) :
    let c : PaymentsCommit := ⟨i, body, [.insertTransfer row], .affected 1⟩
    (paymentsProtocol setting).guar w c ∧ Serving setting ((payments setting).commit w c) i job n := by
  intro c
  have hguar : (paymentsProtocol setting).guar w c :=
    ⟨job, h.job_eq, .insert hfresh hnew, (fun _ _ hraw => nomatch hraw),
      (fun _ _ _ hsaved => nomatch hsaved), fun _ _ hsaved => nomatch hsaved⟩
  refine ⟨hguar, h.inv.commit hguar, h.job_eq, fun hd m hm old hold heq => ?_⟩
  change old ∈ w.db.transfers ++ [row] at hold
  rcases List.mem_append.mp hold with hold | hold
  · exact h.fresh hd m hm old hold heq
  · obtain rfl := List.mem_singleton.mp hold
    rw [hnew.status_eq.2] at heq
    cases heq

/-- An existing transfer answers the request when its fingerprint is right. -/
lemma resolveExisting_cases {canonical : CanonicalTransferRequest} {key : String}
    {existing : Transfer} {Φ : Except PaymentsError TransferView → Prop}
    (hmem : existing ∈ w.db.transfers)
    (hfound : (canonical.splitBillShareId ≠ none ∧
        existing.splitBillShareId = canonical.splitBillShareId) ∨
      (existing.senderUserId = canonical.senderUserId ∧ existing.idempotencyKey = key))
    (hok : ∀ view, Resolves setting.config w.db canonical key view.id → Φ (.ok view))
    (herr : ∀ e, Φ (.error e)) :
    Φ (resolveExisting existing (setting.config.fingerprint canonical)) := by
  unfold resolveExisting
  split_ifs with hne
  · exact herr _
  · exact hok _ ⟨existing, hmem, rfl, not_not.mp hne, hfound⟩

/-- The transfer that a lookup by share or by key finds. -/
lemma transferOfShare_some {db : Database} {shareId : String} {row : Transfer}
    (h : db.transferOfShare shareId = some row) :
    row ∈ db.transfers ∧ row.splitBillShareId = some shareId :=
  ⟨List.mem_of_find?_eq_some h, by simpa using List.find?_some h⟩

lemma transferOfKey_some {db : Database} {senderUserId key : String} {row : Transfer}
    (h : db.transferOfKey senderUserId key = some row) :
    row ∈ db.transfers ∧ row.senderUserId = senderUserId ∧ row.idempotencyKey = key :=
  ⟨List.mem_of_find?_eq_some h, by simpa using List.find?_some h⟩

/-- A read, and what follows it. -/
lemma wp_read_bind {β γ : Type} {f : Database → β} {k : β → PaymentsProg γ}
    {Φ : World → Except PaymentsError γ → Prop} (h : Serving setting w i job n)
    (herr : ∀ w' e, Serving setting w' i job n → w.db.Extends w'.db → Φ w' (.error e))
    (hk : ∀ w', Serving setting w' i job n → w.db.Extends w'.db →
      (k (f w'.db)).wp (payments setting) (paymentsProtocol setting) i Φ w') :
    ((Prog.read f).bind k).wp (payments setting) (paymentsProtocol setting) i Φ w := by
  rw [Prog.wp_bind, Prog.wp_read]
  refine fun w' hw' => ⟨?_, fun e _ => ?_⟩
  · exact hk w' (h.later hw') (later_ahead hw').extends
  · exact herr w' e (h.later hw') (later_ahead hw').extends

section Create

variable {Φ : World → Except PaymentsError TransferView → Prop} (h : Serving setting w i job n)
  (herr : ∀ w' e, Serving setting w' i job n → w.db.Extends w'.db → Φ w' (.error e))

include h herr

/-- The insert of a transfer, and its view. -/
lemma wp_insertAndRead {row : Transfer} (hnew : IsNew setting.config w.db job row)
    (hok : ∀ w' view, Serving setting w' i job n → w.db.Extends w'.db →
      (∃ row' ∈ w'.db.transfers, row.Evolves row' ∧ row'.id = view.id) → Φ w' (.ok view)) :
    (insertAndRead row).wp (payments setting) (paymentsProtocol setting) i Φ w := by
  simp only [insertAndRead, Prog.bind_eq, Prog.wp_bind, Prog.run]
  intro w₁ hw₁
  have h₁ := h.later hw₁
  have he₁ := (later_ahead hw₁).extends
  refine ⟨?_, fun e _ => herr w₁ e h₁ he₁⟩
  simp only [insertStatement, Tx.bind_eq, Tx.wp_bind, Tx.wp_write]
  intro w₂ hw₂
  have h₂ := h₁.later hw₂
  have he₂ := he₁.trans (later_ahead hw₂).extends
  refine ⟨fun e _ => herr w₂ e h₂ he₂, fun ws hws w₃ hw₃ _ => ?_⟩
  obtain ⟨rfl, hfresh⟩ := insertTransfer_fresh hws
  have h₃ := h₂.later hw₃
  have he₃ := he₂.trans (later_ahead hw₃).extends
  obtain ⟨hguar, h₄⟩ := h₃.commit_insert _ (hfresh.later hw₃) (hnew.extends he₃)
  refine ⟨hguar, fun w₅ hw₅ => ?_⟩
  have h₅ := h₄.later hw₅
  have he₅ := he₃.trans ((commit_extends h₃.inv hguar).trans (later_ahead hw₅).extends)
  refine ⟨?_, fun e _ => herr w₅ e h₅ he₅⟩
  simp only [Prog.wp, Except.map]
  cases hfound : ((payments setting).db w₅).transferById row.id with
  | none => exact herr w₅ _ h₅ he₅
  | some created =>
    obtain ⟨hmem, hid⟩ := transferById_some hfound
    have hin : row ∈ (view w₃.db [Write.insertTransfer row]).transfers :=
      List.mem_append_right _ (List.mem_singleton_self row)
    obtain ⟨row', hrow', he⟩ := (later_ahead hw₅).rows row hin
    obtain rfl := List.inj_on_of_nodup_map h₅.inv.ids hrow' hmem (he.id_eq.trans hid.symm)
    exact hok w₅ _ h₅ he₅ ⟨row', hmem, he, rfl⟩

variable {canonical : CanonicalTransferRequest} {key : String}
  (hasks : Asks setting.config w.db job.command canonical key)
  (hok : ∀ w' view, Serving setting w' i job n → w.db.Extends w'.db →
    Resolves setting.config w'.db canonical key view.id → Φ w' (.ok view))

include hasks hok

/-- The insert of a new transfer, or the winner of the race. -/
lemma wp_insertNew {quote : FxQuote}
    (hquote : quoteTransfer canonical.amountMinor canonical.currency canonical.destinationCurrency
      job.draw.quotedAt = .ok quote) :
    (insertNew setting.config canonical key (newTransfer job.draw.id canonical quote key
      (setting.config.fingerprint canonical) job.draw.createdAt)).wp (payments setting)
      (paymentsProtocol setting) i Φ w := by
  rw [insertNew, Prog.wp_attempt]
  refine wp_insertAndRead h (fun w₁ e h₁ he₁ => ?_) ⟨canonical, key, quote, hasks, hquote, rfl⟩
    fun w₁ view h₁ he₁ hrow => ?_
  · unfold afterInsert
    dsimp only
    split
    · have herr' : ∀ w' e, Serving setting w' i job n → w₁.db.Extends w'.db → Φ w' (.error e) :=
        fun w' e h' he' => herr w' e h' (he₁.trans he')
      simp only [findWinner, Prog.bind_eq]
      split
      · next shareId hshare =>
        refine wp_read_bind h₁ herr' fun w₂ h₂ he₂ => ?_
        cases hfound : w₂.db.transferOfShare shareId with
        | none => exact herr' w₂ _ h₂ he₂
        | some winner =>
          obtain ⟨hmem, heq⟩ := transferOfShare_some hfound
          exact resolveExisting_cases hmem (.inl ⟨by simp [hshare], heq.trans hshare.symm⟩)
            (fun view hr => hok w₂ view h₂ (he₁.trans he₂) hr) fun e => herr' w₂ e h₂ he₂
      · refine wp_read_bind h₁ herr' fun w₂ h₂ he₂ => ?_
        cases hfound : w₂.db.transferOfKey canonical.senderUserId key with
        | none => exact herr' w₂ _ h₂ he₂
        | some winner =>
          obtain ⟨hmem, heq⟩ := transferOfKey_some hfound
          exact resolveExisting_cases hmem (.inr heq)
            (fun view hr => hok w₂ view h₂ (he₁.trans he₂) hr) fun e => herr' w₂ e h₂ he₂
    · exact herr w₁ e h₁ he₁
  · obtain ⟨row', hmem, he, hid⟩ := hrow
    refine hok w₁ view h₁ he₁ ?_
    have hold : Resolves setting.config { Database.initial with transfers := [newTransfer job.draw.id
        canonical quote key (setting.config.fingerprint canonical) job.draw.createdAt] } canonical
        key view.id := ⟨_, List.mem_singleton_self _, he.id_eq.symm.trans hid, rfl, .inr ⟨rfl, rfl⟩⟩
    refine hold.extends ⟨fun row hrow => ?_, List.nil_subset _, List.nil_subset _⟩
    obtain rfl := List.mem_singleton.mp hrow
    exact ⟨row', hmem, he⟩

/-- A request returns a transfer that was made by the same request. -/
lemma wp_createCanonical :
    (createCanonical setting.config canonical key job.draw).wp (payments setting)
      (paymentsProtocol setting) i Φ w := by
  have hkey : ∀ w', Serving setting w' i job n → w.db.Extends w'.db →
      (createOrResolve setting.config canonical key job.draw).wp (payments setting)
        (paymentsProtocol setting) i Φ w' := by
    intro w₁ h₁ he₁
    unfold createOrResolve
    refine wp_read_bind h₁ (fun w' e h' he' => herr w' e h' (he₁.trans he')) fun w₂ h₂ he₂ => ?_
    have he := he₁.trans he₂
    cases hfound : w₂.db.transferOfKey canonical.senderUserId key with
    | some existing =>
      obtain ⟨hmem, heq⟩ := transferOfKey_some hfound
      exact resolveExisting_cases hmem (.inr heq) (fun view hr => hok w₂ view h₂ he hr)
        fun e => herr w₂ e h₂ he
    | none =>
      dsimp only
      cases hquote : quoteTransfer canonical.amountMinor canonical.currency
        canonical.destinationCurrency job.draw.quotedAt with
      | ok quote =>
        exact wp_insertNew h₂ (fun w' e h' he' => herr w' e h' (he.trans he')) (hasks.extends he)
          (fun w' view h' he' => hok w' view h' (he.trans he')) hquote
      | error e => exact herr w₂ e h₂ he
  unfold createCanonical
  cases hshare : canonical.splitBillShareId with
  | none => exact hkey w h (.refl _)
  | some shareId =>
    refine wp_read_bind h herr fun w₁ h₁ he₁ => ?_
    cases hfound : w₁.db.transferOfShare shareId with
    | none => exact hkey w₁ h₁ he₁
    | some existing =>
      obtain ⟨hmem, heq⟩ := transferOfShare_some hfound
      exact resolveExisting_cases hmem (.inl ⟨by simp [hshare], heq.trans hshare.symm⟩)
        (fun view hr => hok w₁ view h₁ he₁ hr) fun e => herr w₁ e h₁ he₁

end Create

/-! ### Split bills -/

/-- The inserts of a new bill save no transfer. -/
lemma savedRow_billWrites (bill : SplitBill)
    (rows : List (SplitBillShare × PaymentOutboxMessage)) :
    savedRow (billWrites bill rows) = none := by
  rw [savedRow, List.findSome?_eq_none_iff]
  intro write hwrite
  rcases List.mem_cons.mp hwrite with rfl | hwrite
  · rfl
  · obtain ⟨row, -, hrow⟩ := List.mem_flatMap.mp hwrite
    rcases List.mem_cons.mp hrow with rfl | hrow
    · rfl
    · obtain rfl := List.mem_singleton.mp hrow
      rfl

lemma billWrites_append (bill : SplitBill) (rows : List (SplitBillShare × PaymentOutboxMessage))
    (row : SplitBillShare × PaymentOutboxMessage) :
    billWrites bill (rows ++ [row]) =
      billWrites bill rows ++ [.insertShare row.1] ++ [.insertOutbox row.2] := by
  simp [billWrites]

/-- What the insert of a share has checked. -/
lemma insertShare_fresh {share : SplitBillShare} {db : Database} {ws : List Write}
    (h : insertShare share db = .ok ws) :
    ws = [.insertShare share] ∧ ∀ old ∈ db.shares, old.id ≠ share.id := by
  unfold insertShare at h
  split_ifs at h with _ _ hid
  refine ⟨(Except.ok.inj h).symm, fun old hold heq => hid ?_⟩
  exact List.any_eq_true.mpr ⟨old, hold, by simpa using heq⟩

/-- One more share of a new bill. -/
lemma FreshBill.append {db : Database} {bill : SplitBill}
    {rows : List (SplitBillShare × PaymentOutboxMessage)}
    {row : SplitBillShare × PaymentOutboxMessage} (h : FreshBill db bill rows)
    (hnew : ∀ old ∈ db.shares ++ rows.map (·.1), old.id ≠ row.1.id) :
    FreshBill db bill (rows ++ [row]) := by
  refine ⟨h.id, ?_⟩
  rw [List.map_append (f := fun row : SplitBillShare × PaymentOutboxMessage => row.1),
    ← List.append_assoc, List.map_append, List.nodup_append]
  refine ⟨h.shares, by simp, fun a ha b hb hab => ?_⟩
  obtain ⟨old, hold, rfl⟩ := List.mem_map.mp ha
  exact hnew old hold (by simpa [hab] using hb)

/-- The shares of a new bill are inserted with its keys still free. -/
lemma wp_insertShares {bill : SplitBill} {draw : Draw} {Q : World → List Write → Unit → Prop}
    {E : World → PaymentsError → Prop} (shares : List (String × Int)) {index : Nat}
    {rows : List (SplitBillShare × PaymentOutboxMessage)} (h : Serving setting w i job n)
    (hfresh : FreshBill w.db bill rows)
    (hQ : ∀ w', Serving setting w' i job n →
      FreshBill w'.db bill (rows ++ newShares setting.config bill draw index shares) →
      Q w' (billWrites bill (rows ++ newShares setting.config bill draw index shares)) ())
    (hE : ∀ w' e, Serving setting w' i job n → E w' e) :
    (insertShares setting.config bill draw index shares).wp (payments setting)
      (paymentsProtocol setting) i Q E w (billWrites bill rows) := by
  induction shares generalizing w index rows with
  | nil =>
    have hQ' := hQ w h
    rw [newShares, List.append_nil] at hQ'
    exact hQ' hfresh
  | cons share shares ih =>
    obtain ⟨participantUserId, amountMinor⟩ := share
    simp only [insertShares, enqueueSplitBillCreated, Tx.bind_eq, Tx.wp_bind, Tx.wp_write]
    set new : SplitBillShare :=
      { id := draw.shareIds index, billId := bill.id, participantUserId, amountMinor,
        position := index }
    set message := splitBillCreatedMessage setting.config.isoString bill new
      (draw.shareMessages index)
    intro w₁ hw₁
    have h₁ := h.later hw₁
    have hfresh₁ := hfresh.later List.mem_cons_self
      (fun row hrow => List.mem_cons_of_mem _ (List.mem_flatMap.mpr ⟨row, hrow, by simp⟩)) hw₁
    refine ⟨fun e _ => hE w₁ e h₁, fun ws hws w₂ hw₂ => ?_⟩
    rw [payments, view_bill] at hws
    obtain ⟨rfl, hnew⟩ := insertShare_fresh hws
    have h₂ := h₁.later hw₂
    have hfresh₂ : FreshBill w₂.db bill (rows ++ [(new, message)]) := by
      have happend : FreshBill w₁.db bill (rows ++ [(new, message)]) := hfresh₁.append hnew
      refine happend.later (by simp [billWrites]) (fun row hrow => ?_) hw₂
      rcases List.mem_append.mp hrow with hrow | hrow
      · exact List.mem_append_left _
          (List.mem_cons_of_mem _ (List.mem_flatMap.mpr ⟨row, hrow, by simp⟩))
      · obtain rfl := List.mem_singleton.mp hrow
        simp
    refine ⟨fun e _ => hE w₂ e h₂, fun ws hws => ?_⟩
    unfold insertOutbox at hws
    split_ifs at hws
    obtain rfl := Except.ok.inj hws
    rw [← billWrites_append bill rows (new, message)]
    refine ih h₂ hfresh₂ (fun w' h' hfresh' => ?_)
    have hrows : rows ++ [(new, message)] ++ newShares setting.config bill draw (index + 1) shares =
        rows ++ newShares setting.config bill draw index ((participantUserId, amountMinor) :: shares) := by
      simp [newShares, new, message]
    rw [hrows] at hfresh' ⊢
    exact hQ w' h' hfresh'

/-- The transaction of a new bill. -/
lemma wp_createBillTransaction {bill : SplitBill} {shares : List (String × Int)} {draw : Draw}
    {Q : World → List Write → Reply → Prop} {E : World → PaymentsError → Prop}
    (h : Serving setting w i job n)
    (hQ : ∀ w' count, Serving setting w' i job n →
      FreshBill w'.db bill (newShares setting.config bill draw 0 shares) →
      Q w' (billWrites bill (newShares setting.config bill draw 0 shares)) (.affected count))
    (hE : ∀ w' e, Serving setting w' i job n → E w' e) :
    (createBillTransaction setting.config bill shares draw).wp (payments setting)
      (paymentsProtocol setting) i Q E w [] := by
  simp only [createBillTransaction, Tx.bind_eq, Tx.wp_bind, Tx.wp_write]
  intro w₁ hw₁
  have h₁ := h.later hw₁
  refine ⟨fun e _ => hE w₁ e h₁, fun ws hws => ?_⟩
  unfold insertBill at hws
  split_ifs at hws with _ _ hid
  obtain rfl := Except.ok.inj hws
  have hfresh : FreshBill w₁.db bill [] := by
    refine ⟨fun old hold heq => hid ?_, by simpa using h₁.inv.tables.shareIds⟩
    exact List.any_eq_true.mpr ⟨old, hold, by simpa using heq⟩
  refine wp_insertShares shares h₁ hfresh (fun w' h' hfresh' => ?_) hE
  exact hQ w' _ h' hfresh'

/-- The worker's own commit of a new bill. -/
lemma Serving.commit_bill {bill : SplitBill} {shares : List (String × Int)}
    (h : Serving setting w i job n) (body : PaymentsTx Reply) (count : Nat)
    (hnew : IsNewBill setting.config job bill shares)
    (hfresh : FreshBill w.db bill (newShares setting.config bill job.draw 0 shares)) :
    let c : PaymentsCommit := ⟨i, body,
      billWrites bill (newShares setting.config bill job.draw 0 shares), .affected count⟩
    (paymentsProtocol setting).guar w c ∧ Serving setting ((payments setting).commit w c) i job n := by
  intro c
  have hguar : (paymentsProtocol setting).guar w c := by
    refine ⟨job, h.job_eq, .createBill hnew hfresh, (fun _ _ hraw => nomatch hraw),
      fun _ _ row' hsaved => ?_, fun _ row' hsaved => ?_⟩
    · rw [savedRow_billWrites] at hsaved
      cases hsaved
    · rw [savedRow_billWrites] at hsaved
      cases hsaved
  refine ⟨hguar, h.inv.commit hguar, h.job_eq, fun hd m hm old hold => ?_⟩
  change old ∈ (view w.db (billWrites bill _)).transfers at hold
  rw [view_bill] at hold
  exact h.fresh hd m hm old hold

/-- A bill is read and shown, or an error is thrown. -/
lemma wp_get {id userId : String} {Φ : World → Except PaymentsError SplitBillView → Prop}
    (h : Serving setting w i job n)
    (hΦ : ∀ w' r, Serving setting w' i job n → w.db.Extends w'.db → Φ w' r) :
    (get id userId).wp (payments setting) (paymentsProtocol setting) i Φ w := by
  refine wp_read_bind h (fun w' e h' he => hΦ w' _ h' he) fun w' h' he => ?_
  split
  · exact hΦ w' _ h' he
  · split <;> exact hΦ w' _ h' he

lemma wp_createBill {dto : CreateSplitBillDto} {creatorUserId creatorReference : String}
    {Φ : World → Except PaymentsError SplitBillView → Prop} (h : Serving setting w i job n)
    (hcommand : job.command = .createBill dto creatorUserId creatorReference)
    (hΦ : ∀ w' r, Serving setting w' i job n → Φ w' r) :
    (createBill setting.config dto creatorUserId creatorReference job.draw).wp (payments setting)
      (paymentsProtocol setting) i Φ w := by
  unfold createBill
  simp only [Prog.bind_eq]
  cases htotal : parseMoneyToMinor dto.total "total" with
  | error e => exact hΦ w _ h
  | ok totalMinor =>
    rw [Prog.wp_bind]
    change (ite _ _ _ : PaymentsProg SplitBillView).wp _ _ _ _ _
    split_ifs with hnodup
    · cases hamounts : shareAmounts dto totalMinor with
      | error e => exact hΦ w _ h
      | ok amounts =>
        simp only [Prog.wp_bind, Prog.run]
        change Prog.wp _ _ _ _ (Prog.transaction _ _) _
        intro w₁ hw₁
        have h₁ := h.later hw₁
        refine ⟨?_, fun e _ => hΦ w₁ _ h₁⟩
        refine wp_createBillTransaction h₁ (fun w₂ count h₂ hfresh w₃ hw₃ _ => ?_)
          fun w' e h' => hΦ w' _ h'
        have h₃ := h₂.later hw₃
        have hfresh₃ := hfresh.later List.mem_cons_self
          (fun row hrow => List.mem_cons_of_mem _ (List.mem_flatMap.mpr ⟨row, hrow, by simp⟩)) hw₃
        obtain ⟨hguar, h₄⟩ := h₃.commit_bill _ count
          ⟨dto, creatorUserId, creatorReference, totalMinor, amounts, hcommand, htotal, hnodup,
            hamounts, rfl, rfl⟩ hfresh₃
        exact ⟨hguar, wp_get h₄ fun w' r h' _ => hΦ w' r h'⟩
    · exact hΦ w _ h

/-! ### Payments of shares -/

/-- The share and the bill that `payShare` finds. -/
lemma shareOfBill_some {db : Database} {billId shareId : String} {share : SplitBillShare}
    {bill : SplitBill} (h : db.shareOfBill billId shareId = some (share, bill)) :
    share ∈ db.shares ∧ share.id = shareId ∧ share.billId = billId ∧ bill ∈ db.bills ∧
      bill.id = share.billId := by
  simp only [Database.shareOfBill, Option.bind_eq_bind, Option.bind_eq_some_iff, Option.pure_def,
    Option.some.injEq, Prod.mk.injEq] at h
  obtain ⟨share', hshare, bill', hbill, rfl, rfl⟩ := h
  have hfound := List.find?_some hshare
  simp only [Bool.decide_and, Bool.and_eq_true, decide_eq_true_eq] at hfound
  exact ⟨List.mem_of_find?_eq_some hshare, hfound.1, hfound.2, List.mem_of_find?_eq_some hbill,
    by simpa using List.find?_some hbill⟩

/-- A transfer that answers a request goes on answering it while the thread runs. -/
lemma wp_granted {id : String} {β : Type} {x : PaymentsProg β}
    {Φ : World → Except PaymentsError β → Prop}
    (hgranted : Granted setting.config w.db job.command id)
    (h : x.wp (payments setting) (paymentsProtocol setting) i Φ w) :
    x.wp (payments setting) (paymentsProtocol setting) i
      (fun w' r => Φ w' r ∧ Granted setting.config w'.db job.command id) w := by
  refine Prog.wp_frame (fun w₁ w₂ p hw => ?_) (fun w₁ c hinv hguar => ?_) (fun w₁ q t w₂ hi hg => ?_)
    hgranted h
  · exact fun hg => hg.extends (later_ahead hw).extends
  · exact fun hg => hg.extends (commit_extends hinv hguar)
  · rw [issue_db hi]
    exact hg

/-- The view of a transfer that is read by its id. -/
lemma wp_getStatus {id userId : String} {Φ : World → Except PaymentsError TransferView → Prop}
    (h : Serving setting w i job n)
    (hok : ∀ w' view, Serving setting w' i job n → w.db.Extends w'.db → view.id = id →
      Φ w' (.ok view))
    (herr : ∀ w' e, Serving setting w' i job n → Φ w' (.error e)) :
    (getStatus id userId).wp (payments setting) (paymentsProtocol setting) i Φ w := by
  refine wp_read_bind h (fun w' e h' _ => herr w' e h') fun w' h' he => ?_
  split
  · next row hfound =>
    have hid := List.find?_some hfound
    simp only [Bool.decide_and, Bool.and_eq_true, decide_eq_true_eq] at hid
    exact hok w' _ h' he hid.1
  · exact herr w' _ h'

section PayShare

variable {billId shareId userId walletId : String} {header : Option String} {now : Int}
  {Φ : World → Except PaymentsError (SplitBillView × TransferView) → Prop}
  (h : Serving setting w i job 0)
  (hcommand : job.command = .payShare billId shareId userId walletId header now)
  (hok : ∀ w' bill view, w'.jobs i = some job →
    Granted setting.config w'.db job.command view.id → Φ w' (.ok (bill, view)))
  (herr : ∀ w' e, w'.jobs i = some job → Φ w' (.error e))

include h hcommand hok herr

lemma wp_payShare :
    (payShare setting.config billId shareId userId walletId header now job.draw).wp
      (payments setting) (paymentsProtocol setting) i Φ w := by
  refine wp_read_bind h (fun w' e h' _ => herr w' e h'.job_eq) fun w₁ h₁ _ => ?_
  split
  · exact herr w₁ _ h₁.job_eq
  · next share bill hfound =>
    obtain ⟨hshare, hid, hbillId, hbill, hbill'⟩ := shareOfBill_some hfound
    split_ifs with huser
    · rw [Prog.bind_eq, Prog.wp_bind, createSplitSharePayment, Prog.bind_eq]
      cases hkey : normalizeIdempotencyKey setting.config header with
      | error e => exact herr w₁ _ h₁.job_eq
      | ok key =>
        have hasks : Asks setting.config w₁.db job.command
            ((sharePayment share bill userId walletId).canonical setting.config) key := by
          rw [hcommand]
          exact .payShare hkey hshare hbill hid hbillId (hbill'.trans hbillId) huser
        refine wp_createCanonical h₁ (fun w' e h' _ => herr w' e h'.job_eq) hasks
          fun w₂ view h₂ he₂ hr => ?_
        have hgranted : Granted setting.config w₂.db job.command view.id :=
          ⟨_, key, hasks.extends he₂, hr⟩
        dsimp only
        rw [Prog.bind_eq, Prog.wp_bind]
        refine Prog.wp_mono (fun w₃ r h₃ => ?_)
          (wp_granted hgranted (wp_run h₂ rfl (by rw [hcommand]; rfl)))
        cases r with
        | error e => exact herr w₃ _ h₃.1.1.job_eq
        | ok =>
          dsimp only
          rw [Prog.bind_eq, Prog.wp_bind]
          refine wp_get h₃.1.1 fun w₄ r h₄ he₄ => ?_
          cases r with
          | error e => exact herr w₄ _ h₄.job_eq
          | ok billView =>
            dsimp only
            rw [Prog.bind_eq, Prog.wp_bind]
            refine wp_getStatus h₄ (fun w₅ view' h₅ he₅ hview => ?_)
              fun w' e h' => herr w' _ h'.job_eq
            refine hok w₅ billView view' h₅.job_eq ?_
            rw [hview]
            exact h₃.2.extends (he₄.trans he₅)
    · exact herr w₁ _ h₁.job_eq

end PayShare

end Payments

end PeerLedger
