import PeerLedger.Payments.FxRounding
import PeerLedger.Payments.SettledBills

/-!
# Splitting a bill

A new bill is stored with one positive share for each of its participants, in the order of the
request, and the shares add up to its total (`bill_splits_exactly`).  In an equal split no share is
above one before it or more than one unit below it; in a custom split each share is the amount that was
asked for.  The requests that are accepted are those with a `Splits`, and a refused one stores nothing.
-/

namespace PeerLedger

namespace Payments

open Transactions

/-- The ids of the participants, in lower case. -/
def participantIds (config : Config) (dto : CreateSplitBillDto) : List String :=
  dto.participants.map fun participant => config.toLowerCase participant.userId

/-- The amounts that a custom split asks for, with the field of each. -/
def ParsedShares (dto : CreateSplitBillDto) (amounts : List Int) : Prop :=
  amounts.length = dto.participants.length ∧
    ∀ (i : Nat) participant amount, dto.participants[i]? = some participant → amounts[i]? = some amount →
      ∃ share, participant.share = some share ∧
        parseMoneyToMinor share (shareField i) = .ok amount

/-- The request can be split: its total is an amount of money, its participants are unique, and an
equal split has a unit for each of them, a custom one the total for all of them. -/
def Splits (config : Config) (dto : CreateSplitBillDto) : Prop :=
  ∃ total, parseMoneyToMinor dto.total "total" = .ok total ∧ (participantIds config dto).Nodup ∧
    (dto.mode = .equal → (∀ participant ∈ dto.participants, participant.share = none) ∧
      (dto.participants.length : Int) ≤ total) ∧
    (dto.mode = .custom → ∃ amounts, ParsedShares dto amounts ∧ amounts.sum = total)

/-- The shares that a request has stored. -/
structure StoredSplit (config : Config) (dto : CreateSplitBillDto) (draw : Draw) (db db' : Database)
    (total : Int) (rows : List SplitBillShare) : Prop where
  bills : ∃ bill, db'.bills = db.bills ++ [bill] ∧ bill.id = draw.billId ∧ bill.totalMinor = total
  shares : db'.shares = db.shares ++ rows
  bill : ∀ row ∈ rows, row.billId = draw.billId
  participants : rows.map (·.participantUserId) = participantIds config dto
  distinct : (participantIds config dto).Nodup
  positions : rows.map (·.position) = List.range dto.participants.length
  positive : ∀ row ∈ rows, 0 < row.amountMinor
  sum : (rows.map (·.amountMinor)).sum = total
  equal : dto.mode = .equal → rows.Pairwise fun first second =>
    second.amountMinor ≤ first.amountMinor ∧ first.amountMinor ≤ second.amountMinor + 1
  custom : dto.mode = .custom → ParsedShares dto (rows.map (·.amountMinor))

/-- `randomUUID()` has drawn ids that are nowhere in the database. -/
structure FreshDraw (draw : Draw) (count : Nat) (db : Database) : Prop where
  bill : ∀ old ∈ db.bills, old.id ≠ draw.billId
  shareBills : ∀ old ∈ db.shares, old.billId ≠ draw.billId
  shares : (db.shares.map (·.id) ++ (List.range count).map draw.shareIds).Nodup
  messages : (db.outbox.map (·.eventId) ++
    (List.range count).map fun i => (draw.shareMessages i).eventId).Nodup

/-! ### Amounts -/

variable {config : Config} {dto : CreateSplitBillDto} {draw : Draw} {db : Database}
  {total : Int} {amounts : List Int}

lemma equalShares_eq (total : Int) (count : Nat) :
    equalShares total count = (List.range count).map fun i : Nat =>
      total.tdiv count + if (i : Int) < total.tmod count then 1 else 0 := by
  rw [equalShares]
  exact (congrArg _ List.map_eq_flatMap.symm).trans List.map_map

/-- No share of an equal split is above one before it or more than one unit below it. -/
lemma equalShares_fair (total : Int) (count : Nat) :
    (equalShares total count).Pairwise fun first second => second ≤ first ∧ first ≤ second + 1 := by
  rw [equalShares_eq, List.pairwise_map]
  refine List.pairwise_lt_range.imp ?_
  intro i j hij
  have hcast : (i : Int) < j := by exact_mod_cast hij
  constructor
  · split_ifs <;> omega
  · split_ifs <;> omega

/-- The shares of an equal split are positive when there is a unit for each. -/
lemma equalShares_pos {count : Nat} (hcount : 0 < count) (h : (count : Int) ≤ total) :
    ∀ amount ∈ equalShares total count, 0 < amount := by
  intro amount hamount
  rw [equalShares_eq] at hamount
  obtain ⟨i, -, rfl⟩ := List.mem_map.mp hamount
  have hbase : 1 ≤ total.tdiv count := by
    rw [Int.tdiv_eq_ediv_of_nonneg (by omega)]
    exact (Int.le_ediv_iff_mul_le (by exact_mod_cast hcount)).mpr (by omega)
  split_ifs <;> omega

/-- An equal split is refused when it has no unit for each share. -/
lemma tdiv_eq_zero_iff {count : Nat} (hcount : 0 < count) (htotal : 0 < total) :
    total.tdiv count = 0 ↔ total < count := by
  have hpos : (0 : Int) < count := by exact_mod_cast hcount
  rw [Int.tdiv_eq_ediv_of_nonneg htotal.le]
  constructor
  · intro hzero
    by_contra hle
    have := (Int.le_ediv_iff_mul_le hpos).mpr (by omega : 1 * (count : Int) ≤ total)
    omega
  · exact Int.ediv_eq_zero_of_lt htotal.le

/-- An empty text is no amount of money. -/
lemma parseMoneyToMinor_empty (field : String) (minor : Int) :
    parseMoneyToMinor "" field ≠ .ok minor := by
  intro h
  have hparts : moneyParts "" = none := by decide
  rw [parseMoneyToMinor, hparts] at h
  cases h

/-- The first share of a custom split, and the others. -/
lemma customShares_cons_ok {index : Nat} {participant : SplitParticipantDto}
    {rest : List SplitParticipantDto} :
    customShares index (participant :: rest) = .ok amounts ↔ ∃ share amount others,
      participant.share = some share ∧ parseMoneyToMinor share (shareField index) = .ok amount ∧
      customShares (index + 1) rest = .ok others ∧ amounts = amount :: others := by
  rw [customShares]
  constructor
  · intro h
    split at h
    · cases h
    next share hshare =>
    split_ifs at h
    · cases h
    obtain ⟨_, hshare', h⟩ := except_bind_ok.mp h
    obtain rfl := Except.ok.inj hshare'
    obtain ⟨amount, hamount, h⟩ := except_bind_ok.mp h
    obtain ⟨others, hothers, h⟩ := except_bind_ok.mp h
    exact ⟨share, amount, others, hshare, hamount, hothers, (Except.ok.inj h).symm⟩
  · rintro ⟨share, amount, others, hshare, hamount, hothers, rfl⟩
    have hne : share ≠ "" := by
      rintro rfl
      exact parseMoneyToMinor_empty _ _ hamount
    simp only [hshare, if_neg hne]
    refine except_bind_ok.mpr ⟨share, rfl, ?_⟩
    refine except_bind_ok.mpr ⟨amount, hamount, ?_⟩
    exact except_bind_ok.mpr ⟨others, hothers, rfl⟩

/-- A custom split is read share by share. -/
lemma customShares_ok_iff {index : Nat} {participants : List SplitParticipantDto} :
    customShares index participants = .ok amounts ↔ amounts.length = participants.length ∧
      ∀ (i : Nat) participant amount, participants[i]? = some participant →
        amounts[i]? = some amount → ∃ share, participant.share = some share ∧
          parseMoneyToMinor share (shareField (index + i)) = .ok amount := by
  induction participants generalizing index amounts with
  | nil =>
    rw [customShares]
    constructor
    · intro h
      obtain rfl := Except.ok.inj h
      simp
    · rintro ⟨hlength, -⟩
      rw [List.eq_nil_of_length_eq_zero hlength]
  | cons participant rest ih =>
    rw [customShares_cons_ok]
    constructor
    · rintro ⟨share, amount, others, hshare, hamount, hothers, rfl⟩
      obtain ⟨hlength, hrest⟩ := ih.mp hothers
      refine ⟨by simp [hlength], ?_⟩
      intro i participant' amount' hparticipant hamount'
      cases i with
      | zero =>
        obtain rfl := Option.some.inj hparticipant
        obtain rfl := Option.some.inj hamount'
        exact ⟨share, hshare, hamount⟩
      | succ i =>
        obtain ⟨share', hshare', hparse⟩ := hrest i participant' amount' hparticipant hamount'
        exact ⟨share', hshare', by rwa [Nat.add_right_comm] at hparse⟩
    · rintro ⟨hlength, hall⟩
      obtain ⟨amount, others, rfl⟩ := List.exists_cons_of_length_eq_add_one hlength
      obtain ⟨share, hshare, hamount⟩ := hall 0 participant amount rfl rfl
      refine ⟨share, amount, others, hshare, hamount, ih.mpr ⟨by simpa using hlength, ?_⟩, rfl⟩
      intro i participant' amount' hparticipant hamount'
      obtain ⟨share', hshare', hparse⟩ := hall (i + 1) participant' amount' hparticipant hamount'
      exact ⟨share', hshare', by rwa [← Nat.add_assoc, Nat.add_right_comm] at hparse⟩

/-- The amounts of the shares are those that a `Splits` has. -/
lemma shareAmounts_ok_iff (htotal : 0 < total) (hne : dto.participants ≠ []) :
    (∃ amounts, shareAmounts dto total = .ok amounts) ↔
      (dto.mode = .equal → (∀ participant ∈ dto.participants, participant.share = none) ∧
        (dto.participants.length : Int) ≤ total) ∧
      (dto.mode = .custom → ∃ amounts, ParsedShares dto amounts ∧ amounts.sum = total) := by
  have hpos : 0 < dto.participants.length := List.length_pos_of_ne_nil hne
  rw [shareAmounts]
  cases hmode : dto.mode with
  | equal =>
    simp only [reduceCtorEq, false_implies, and_true, forall_const]
    have hnone : (dto.participants.any fun participant => participant.share.isSome) = false ↔
        ∀ participant ∈ dto.participants, participant.share = none := by
      simp
    rw [if_neg hne]
    by_cases hany : dto.participants.any fun participant => participant.share.isSome
    · rw [if_pos hany]
      simp only [reduceCtorEq, exists_false, false_iff]
      rintro ⟨h, -⟩
      rw [hnone.mpr h] at hany
      cases hany
    · rw [if_neg hany]
      have hshares := hnone.mp (Bool.eq_false_iff.mpr hany)
      by_cases hzero : total.tdiv dto.participants.length = 0
      · rw [if_pos hzero]
        have hsmall := (tdiv_eq_zero_iff hpos htotal).mp hzero
        simp only [reduceCtorEq, exists_false, false_iff]
        rintro ⟨-, h⟩
        omega
      · rw [if_neg hzero]
        have hlarge := mt (tdiv_eq_zero_iff hpos htotal).mpr hzero
        simp only [Except.ok.injEq, exists_eq', true_iff]
        exact ⟨hshares, by omega⟩
  | custom =>
    simp only [reduceCtorEq, false_implies, true_and, forall_const]
    constructor
    · rintro ⟨amounts, h⟩
      obtain ⟨amounts', hamounts, h⟩ := except_bind_ok.mp h
      split_ifs at h with hsum
      obtain ⟨hlength, hparsed⟩ := customShares_ok_iff.mp hamounts
      refine ⟨amounts', ⟨hlength, ?_⟩, not_not.mp hsum⟩
      simpa using hparsed
    · rintro ⟨amounts, ⟨hlength, hparsed⟩, hsum⟩
      have hamounts : customShares 0 dto.participants = .ok amounts :=
        customShares_ok_iff.mpr ⟨hlength, by simpa using hparsed⟩
      exact ⟨amounts, except_bind_ok.mpr ⟨amounts, hamounts, if_neg (not_not.mpr hsum)⟩⟩

/-- The amounts of the shares are positive, and fair in an equal split. -/
lemma shareAmounts_spec (h : shareAmounts dto total = .ok amounts) (htotal : 0 < total)
    (hne : dto.participants ≠ []) :
    (∀ amount ∈ amounts, 0 < amount) ∧
      (dto.mode = .equal →
        amounts.Pairwise fun first second => second ≤ first ∧ first ≤ second + 1) ∧
      (dto.mode = .custom → ParsedShares dto amounts) := by
  have hsplits := (shareAmounts_ok_iff htotal hne).mp ⟨amounts, h⟩
  rw [shareAmounts] at h
  cases hmode : dto.mode with
  | equal =>
    rw [hmode] at h
    dsimp only at h
    split_ifs at h
    obtain rfl := Except.ok.inj h
    have hpos : 0 < dto.participants.length := List.length_pos_of_ne_nil hne
    simp only [reduceCtorEq, false_implies, and_true, forall_const]
    exact ⟨equalShares_pos hpos (hsplits.1 hmode).2, equalShares_fair _ _⟩
  | custom =>
    rw [hmode] at h
    obtain ⟨amounts', hamounts, h⟩ := except_bind_ok.mp h
    split_ifs at h
    obtain rfl := Except.ok.inj h
    obtain ⟨hlength, hparsed⟩ := customShares_ok_iff.mp hamounts
    simp only [reduceCtorEq, false_implies, true_and, forall_const]
    simp only [Nat.zero_add] at hparsed
    refine ⟨?_, hlength, hparsed⟩
    intro amount hamount
    obtain ⟨i, hi, rfl⟩ := List.getElem_of_mem hamount
    obtain ⟨share, -, hparse⟩ := hparsed i dto.participants[i] amounts'[i]
      (List.getElem?_eq_getElem _) (List.getElem?_eq_getElem _)
    exact parseMoneyToMinor_pos hparse

/-! ### The transaction -/

/-- The bill of a request. -/
def newBill (config : Config) (dto : CreateSplitBillDto) (creatorUserId creatorReference : String)
    (totalMinor : Int) (draw : Draw) : SplitBill :=
  { id := draw.billId, creatorUserId,
    creatorReference := config.toLowerCase (config.trim creatorReference), totalMinor,
    currency := config.toUpperCase dto.currency, deadline := dto.deadline }

/-- The rows can be inserted: their keys are free and their amounts in range. -/
structure Insertable (db : Database) (bill : SplitBill)
    (rows : List (SplitBillShare × PaymentOutboxMessage)) : Prop where
  billId : ∀ row ∈ rows, row.1.billId = bill.id
  others : ∀ old ∈ db.shares, old.billId ≠ bill.id
  positive : ∀ row ∈ rows, 0 < row.1.amountMinor
  fits : ∀ row ∈ rows, Ledger.fitsBigint row.1.amountMinor
  ids : (db.shares.map (·.id) ++ rows.map (·.1.id)).Nodup
  participants : (rows.map (·.1.participantUserId)).Nodup
  positions : (rows.map (·.1.position)).Nodup
  events : (db.outbox.map (·.eventId) ++ rows.map (·.2.eventId)).Nodup

variable {bill : SplitBill} {rows : List (SplitBillShare × PaymentOutboxMessage)}
  {row : SplitBillShare × PaymentOutboxMessage}

/-- A key that comes after others differs from them. -/
lemma not_mem_of_nodup_append {α : Type} {keys later : List α} {key : α}
    (h : (keys ++ key :: later).Nodup) : key ∉ keys := by
  intro hmem
  exact (List.nodup_append.mp h).2.2 key hmem key List.mem_cons_self rfl

/-- The next row of a new bill can be inserted, with its message. -/
lemma Insertable.next {later : List (SplitBillShare × PaymentOutboxMessage)}
    (h : Insertable db bill (rows ++ row :: later)) :
    insertShare row.1 (view db (billWrites bill rows)) = .ok [.insertShare row.1] ∧
      insertOutbox row.2 (view db (billWrites bill rows ++ [.insertShare row.1])) =
        .ok [.insertOutbox row.2] := by
  have hrow : row ∈ rows ++ row :: later := by simp
  have hid : row.1.id ∉ db.shares.map (·.id) ++ rows.map (·.1.id) := by
    have hids := h.ids
    rw [List.map_append, List.map_cons, ← List.append_assoc] at hids
    exact not_mem_of_nodup_append hids
  have hparticipant : row.1.participantUserId ∉ rows.map (·.1.participantUserId) := by
    have hparticipants := h.participants
    rw [List.map_append, List.map_cons] at hparticipants
    exact not_mem_of_nodup_append hparticipants
  have hposition : row.1.position ∉ rows.map (·.1.position) := by
    have hpositions := h.positions
    rw [List.map_append, List.map_cons] at hpositions
    exact not_mem_of_nodup_append hpositions
  have hevent : row.2.eventId ∉ db.outbox.map (·.eventId) ++ rows.map (·.2.eventId) := by
    have hevents := h.events
    rw [List.map_append, List.map_cons, ← List.append_assoc] at hevents
    exact not_mem_of_nodup_append hevents
  have hbill := h.billId row hrow
  constructor
  · rw [view_bill, insertShare, if_neg (not_not.mpr (h.fits row hrow)),
      if_neg (not_le.mpr (h.positive row hrow)), if_neg, if_neg, if_neg, if_pos]
    · simp [hbill]
    · rw [List.any_eq_true]
      rintro ⟨old, hold, hsame⟩
      obtain ⟨hsamebill, hsameposition⟩ := of_decide_eq_true hsame
      rcases List.mem_append.mp hold with hold | hold
      · exact h.others old hold (hsamebill.trans hbill)
      · obtain ⟨other, hother, rfl⟩ := List.mem_map.mp hold
        exact hposition (List.mem_map.mpr ⟨other, hother, hsameposition⟩)
    · rw [List.any_eq_true]
      rintro ⟨old, hold, hsame⟩
      obtain ⟨hsamebill, hsameparticipant⟩ := of_decide_eq_true hsame
      rcases List.mem_append.mp hold with hold | hold
      · exact h.others old hold (hsamebill.trans hbill)
      · obtain ⟨other, hother, rfl⟩ := List.mem_map.mp hold
        exact hparticipant (List.mem_map.mpr ⟨other, hother, hsameparticipant⟩)
    · rw [List.any_eq_true]
      rintro ⟨old, hold, hsame⟩
      refine hid ?_
      rw [← of_decide_eq_true hsame]
      simpa using List.mem_map_of_mem (f := (·.id)) hold
  · rw [view_append, view_bill, insertOutbox, if_neg]
    rw [List.any_eq_true]
    rintro ⟨old, hold, hsame⟩
    refine hevent ?_
    rw [← of_decide_eq_true hsame]
    have hmem : old.eventId ∈ (db.outbox ++ rows.map (·.2)).map (·.eventId) :=
      List.mem_map_of_mem hold
    simpa using hmem

/-- The shares of a new bill are inserted. -/
lemma insertShares_alone {shares : List (String × Int)} {index : Nat}
    (h : Insertable db bill (rows ++ newShares config bill draw index shares)) :
    (insertShares config bill draw index shares).alone db (billWrites bill rows) =
      .ok ((), billWrites bill (rows ++ newShares config bill draw index shares)) := by
  induction shares generalizing index rows with
  | nil => simp [insertShares, newShares, Tx.alone]
  | cons share shares ih =>
    obtain ⟨participantUserId, amountMinor⟩ := share
    rw [newShares] at h ⊢
    obtain ⟨hshare, hmessage⟩ := h.next
    simp only [insertShares, enqueueSplitBillCreated, Tx.bind_eq]
    refine Tx.alone_bind_ok ((Tx.alone_write _ _ _).trans (congrArg _ hshare)) ?_
    refine Tx.alone_bind_ok ((Tx.alone_write _ _ _).trans (congrArg _ hmessage)) ?_
    rw [List.append_cons] at h
    have hrest := ih h
    rw [billWrites_append] at hrest
    rw [List.append_cons rows]
    exact hrest

/-- When the shares have been inserted, these are the writes. -/
lemma insertShares_alone_eq {shares : List (String × Int)} {index : Nat} {u : Unit}
    {writes : List Write}
    (h : (insertShares config bill draw index shares).alone db (billWrites bill rows) =
      .ok (u, writes)) :
    writes = billWrites bill (rows ++ newShares config bill draw index shares) := by
  induction shares generalizing index rows with
  | nil =>
    rw [insertShares] at h
    cases h
    simp [newShares]
  | cons share shares ih =>
    obtain ⟨participantUserId, amountMinor⟩ := share
    simp only [insertShares, enqueueSplitBillCreated, Tx.bind_eq] at h
    obtain ⟨_, _, hwrite, h⟩ := Tx.alone_bind_eq_ok h
    obtain ⟨_, _, hwrite', h⟩ := Tx.alone_bind_eq_ok h
    obtain ⟨_, hshare, rfl⟩ := Tx.alone_write_eq_ok hwrite
    obtain ⟨_, hmessage, rfl⟩ := Tx.alone_write_eq_ok hwrite'
    obtain ⟨rfl, -⟩ := insertShare_fresh hshare
    unfold insertOutbox at hmessage
    split_ifs at hmessage
    obtain rfl := Except.ok.inj hmessage
    rw [newShares, List.append_cons]
    refine ih ?_
    rw [billWrites_append]
    exact h

/-- When a bill has been created, these are the writes, and no other bill has its id. -/
lemma createBillTransaction_alone_eq {shares : List (String × Int)} {reply : Reply}
    {writes : List Write}
    (h : (createBillTransaction config bill shares draw).alone db [] = .ok (reply, writes)) :
    writes = billWrites bill (newShares config bill draw 0 shares) ∧
      ∀ old ∈ db.bills, old.id ≠ bill.id := by
  simp only [createBillTransaction, Tx.bind_eq] at h
  obtain ⟨_, _, hwrite, hrest⟩ := Tx.alone_bind_eq_ok h
  obtain ⟨_, _, hshares, hreturn⟩ := Tx.alone_bind_eq_ok hrest
  obtain ⟨_, hbill, rfl⟩ := Tx.alone_write_eq_ok hwrite
  unfold insertBill at hbill
  split_ifs at hbill with _ _ hid
  obtain rfl := Except.ok.inj hbill
  have hwrites := @insertShares_alone_eq _ _ _ _ [] _ _ _ _ hshares
  cases hreturn
  refine ⟨hwrites, ?_⟩
  intro old hold heq
  exact hid (List.any_eq_true.mpr ⟨old, hold, decide_eq_true heq⟩)

/-- A bill with fresh ids is created. -/
lemma createBillTransaction_alone {shares : List (String × Int)}
    (hbill : ∀ old ∈ db.bills, old.id ≠ bill.id) (hpositive : 0 < bill.totalMinor)
    (hfits : Ledger.fitsBigint bill.totalMinor)
    (h : Insertable db bill (newShares config bill draw 0 shares)) :
    ∃ writes, (createBillTransaction config bill shares draw).alone db [] =
      .ok (.affected shares.length, writes) := by
  have hinsert : insertBill bill (view db ([] : List Write)) = .ok [.insertBill bill] := by
    rw [view_nil, insertBill, if_neg (not_not.mpr hfits), if_neg (not_le.mpr hpositive), if_neg]
    rw [List.any_eq_true]
    rintro ⟨old, hold, hsame⟩
    exact hbill old hold (of_decide_eq_true hsame)
  have hshares := @insertShares_alone _ _ _ _ [] _ _ h
  refine ⟨billWrites bill (newShares config bill draw 0 shares), ?_⟩
  simp only [createBillTransaction, Tx.bind_eq]
  refine Tx.alone_bind_ok ((Tx.alone_write _ _ _).trans (congrArg _ hinsert)) ?_
  exact Tx.alone_bind_ok hshares rfl

/-! ### The request -/

variable {creatorUserId creatorReference : String} {answer : Ask → Answer}

/-- Its creator sees a new bill. -/
lemma get_against (answer : Ask → Answer) (rows : List (SplitBillShare × PaymentOutboxMessage))
    (hid : ∀ old ∈ db.bills, old.id ≠ bill.id) :
    ∃ shown, (get bill.id bill.creatorUserId).against answer (view db (billWrites bill rows)) =
      (.ok shown, view db (billWrites bill rows)) := by
  have hfind : (view db (billWrites bill rows)).bills.find? (fun old => old.id = bill.id) =
      some bill := by
    rw [view_bill]
    refine List.find?_append.trans ?_
    rw [List.find?_eq_none.mpr]
    · simp
    · intro old hold
      simpa using hid old hold
  have hload : ∃ shares, (view db (billWrites bill rows)).loadBill bill.id = some ⟨bill, shares⟩ := by
    unfold Database.loadBill
    rw [hfind]
    exact ⟨_, rfl⟩
  obtain ⟨shares, hload⟩ := hload
  have hvisible : LoadedBill.isVisible ⟨bill, shares⟩ bill.creatorUserId = true := by
    simp [LoadedBill.isVisible]
  refine ⟨billView ⟨bill, shares⟩, ?_⟩
  change Prog.against answer (showBill _ (Database.loadBill _ _)) _ = _
  rw [hload, showBill, if_pos hvisible]
  rfl

/-- The request, once its amounts are known. -/
lemma createBill_against (hparse : parseMoneyToMinor dto.total "total" = .ok total)
    (hunique : (participantIds config dto).Nodup) (hamounts : shareAmounts dto total = .ok amounts) :
    (createBill config dto creatorUserId creatorReference draw).against answer db =
      (match (createBillTransaction config
          (newBill config dto creatorUserId creatorReference total draw)
          ((participantIds config dto).zip amounts) draw).alone db [] with
        | .ok (_, writes) => (get draw.billId creatorUserId).against answer (view db writes)
        | .error e => (.error e, db)) := by
  rw [createBill, hparse]
  change Prog.against answer (ite (participantIds config dto).Nodup _ _) db = _
  rw [if_pos hunique, hamounts]
  change Prog.against answer (Prog.transaction (createBillTransaction config
    (newBill config dto creatorUserId creatorReference total draw)
    ((participantIds config dto).zip amounts) draw) _) db = _
  rw [Prog.against]
  cases (createBillTransaction config (newBill config dto creatorUserId creatorReference total draw)
    ((participantIds config dto).zip amounts) draw).alone db [] with
  | ok r => rfl
  | error e => rfl

/-- A request that cannot be split is refused before anything is stored. -/
lemma createBill_refused (hrefused : ∀ total, parseMoneyToMinor dto.total "total" = .ok total →
      (participantIds config dto).Nodup → ∀ amounts, shareAmounts dto total ≠ .ok amounts) :
    ∃ e, (createBill config dto creatorUserId creatorReference draw).against answer db =
      (.error e, db) := by
  rw [createBill]
  cases hparse : parseMoneyToMinor dto.total "total" with
  | error e => exact ⟨e, rfl⟩
  | ok total =>
    change ∃ e, Prog.against answer (ite (participantIds config dto).Nodup _ _) db = (.error e, db)
    by_cases hunique : (participantIds config dto).Nodup
    · rw [if_pos hunique]
      cases hamounts : shareAmounts dto total with
      | error e => exact ⟨e, rfl⟩
      | ok amounts => exact absurd hamounts (hrefused total hparse hunique amounts)
    · rw [if_neg hunique]
      exact ⟨_, rfl⟩

/-- The shares of a new bill, one after another. -/
lemma newShares_columns (config : Config) (bill : SplitBill) (draw : Draw) (index : Nat)
    (shares : List (String × Int)) :
    (newShares config bill draw index shares).map (·.1.participantUserId) = shares.map (·.1) ∧
      (newShares config bill draw index shares).map (·.1.position) =
        List.range' index shares.length ∧
      (newShares config bill draw index shares).map (·.1.id) =
        (List.range' index shares.length).map draw.shareIds ∧
      (newShares config bill draw index shares).map (·.2.eventId) =
        (List.range' index shares.length).map fun i => (draw.shareMessages i).eventId := by
  induction shares generalizing index with
  | nil => simp [newShares]
  | cons share shares ih =>
    obtain ⟨hparticipants, hpositions, hids, hevents⟩ := ih (index + 1)
    simp only [newShares, List.map_cons, hparticipants, hpositions, hids, hevents,
      List.length_cons, List.range'_succ]
    exact ⟨trivial, trivial, trivial, rfl⟩

/-- The shares of a request that can be split can be inserted. -/
lemma insertable_newShares (creatorUserId creatorReference : String)
    (hfresh : FreshDraw draw dto.participants.length db)
    (hparse : parseMoneyToMinor dto.total "total" = .ok total)
    (hunique : (participantIds config dto).Nodup) (hamounts : shareAmounts dto total = .ok amounts)
    (hne : dto.participants ≠ []) :
    Insertable db (newBill config dto creatorUserId creatorReference total draw)
      (newShares config (newBill config dto creatorUserId creatorReference total draw) draw 0
        ((participantIds config dto).zip amounts)) := by
  have htotal := parseMoneyToMinor_pos hparse
  obtain ⟨hlength, hsum⟩ := shareAmounts_sum hamounts htotal
  obtain ⟨hpositive, -, -⟩ := shareAmounts_spec hamounts htotal hne
  have hids : (participantIds config dto).length = dto.participants.length := List.length_map _
  have hzip : ((participantIds config dto).zip amounts).length = dto.participants.length := by
    simp [hlength, hids]
  obtain ⟨hparticipants, hpositions, hshares, hevents⟩ := newShares_columns config
    (newBill config dto creatorUserId creatorReference total draw) draw 0
    ((participantIds config dto).zip amounts)
  have hrange : List.range' 0 ((participantIds config dto).zip amounts).length =
      List.range dto.participants.length := by
    rw [hzip, List.range_eq_range']
  rw [hrange] at hpositions hshares hevents
  rw [List.map_fst_zip (by omega)] at hparticipants
  have hamount : ∀ row ∈ newShares config
      (newBill config dto creatorUserId creatorReference total draw) draw 0
      ((participantIds config dto).zip amounts), row.1.amountMinor ∈ amounts := by
    intro row hrow
    have hmem := List.mem_map_of_mem (f := (·.1.amountMinor)) hrow
    rw [newShares_amounts, List.map_snd_zip (by omega)] at hmem
    exact hmem
  exact {
    billId := fun row hrow => newShares_billId hrow
    others := hfresh.shareBills
    positive := fun row hrow => hpositive _ (hamount row hrow)
    fits := by
      intro row hrow
      have hle : row.1.amountMinor ≤ amounts.sum :=
        List.single_le_sum (fun amount h => (hpositive amount h).le) _ (hamount row hrow)
      have hlarge := parseMoneyToMinor_le hparse
      have hsmall := hpositive _ (hamount row hrow)
      unfold Ledger.fitsBigint Ledger.MAX_SAFE_INTEGER at *
      omega
    ids := by
      rw [hshares]
      exact hfresh.shares
    participants := by
      rw [hparticipants]
      exact hunique
    positions := by
      rw [hpositions]
      exact List.nodup_range
    events := by
      rw [hevents]
      exact hfresh.messages }

/-- The shares of a new bill are those of its request. -/
lemma storedSplit_newShares (hparse : parseMoneyToMinor dto.total "total" = .ok total)
    (hunique : (participantIds config dto).Nodup) (hamounts : shareAmounts dto total = .ok amounts)
    (hne : dto.participants ≠ []) :
    StoredSplit config dto draw db
      (view db (billWrites (newBill config dto creatorUserId creatorReference total draw)
        (newShares config (newBill config dto creatorUserId creatorReference total draw) draw 0
          ((participantIds config dto).zip amounts)))) total
      ((newShares config (newBill config dto creatorUserId creatorReference total draw) draw 0
        ((participantIds config dto).zip amounts)).map (·.1)) := by
  have htotal := parseMoneyToMinor_pos hparse
  obtain ⟨hlength, hsum⟩ := shareAmounts_sum hamounts htotal
  obtain ⟨hpositive, hequal, hcustom⟩ := shareAmounts_spec hamounts htotal hne
  have hids : (participantIds config dto).length = dto.participants.length := List.length_map _
  have hzip : ((participantIds config dto).zip amounts).length = dto.participants.length := by
    simp [hlength, hids]
  set bill := newBill config dto creatorUserId creatorReference total draw with hbill
  obtain ⟨hparticipants, hpositions, -, -⟩ :=
    newShares_columns config bill draw 0 ((participantIds config dto).zip amounts)
  rw [List.map_fst_zip (by omega)] at hparticipants
  rw [hzip, ← List.range_eq_range'] at hpositions
  have hminor := newShares_amounts config bill draw 0 ((participantIds config dto).zip amounts)
  rw [List.map_snd_zip (by omega)] at hminor
  set rows := newShares config bill draw 0 ((participantIds config dto).zip amounts)
  have hcolumn : (rows.map (·.1)).map (·.amountMinor) = amounts := by
    rw [List.map_map]
    exact hminor
  rw [view_bill]
  exact {
    bills := ⟨bill, rfl, rfl, rfl⟩
    shares := rfl
    bill := by
      intro share hshare
      obtain ⟨row, hrow, rfl⟩ := List.mem_map.mp hshare
      exact newShares_billId hrow
    participants := by
      rw [List.map_map]
      exact hparticipants
    distinct := hunique
    positions := by
      rw [List.map_map]
      exact hpositions
    positive := by
      intro share hshare
      refine hpositive _ ?_
      rw [← hcolumn]
      exact List.mem_map_of_mem hshare
    sum := by rw [hcolumn, hsum]
    equal := by
      intro hmode
      have hfair := hequal hmode
      rw [← hcolumn, List.pairwise_map] at hfair
      exact hfair
    custom := by
      intro hmode
      rw [hcolumn]
      exact hcustom hmode }

/-- A request is refused and stores nothing, or it is accepted and stores its bill. -/
lemma createBill_cases (config : Config) (dto : CreateSplitBillDto)
    (creatorUserId creatorReference : String) (draw : Draw) (db : Database)
    (answer : Ask → Answer) :
    (∃ e, (createBill config dto creatorUserId creatorReference draw).against answer db =
      (.error e, db)) ∨
    ∃ total amounts shown, parseMoneyToMinor dto.total "total" = .ok total ∧
      (participantIds config dto).Nodup ∧ shareAmounts dto total = .ok amounts ∧
      (createBill config dto creatorUserId creatorReference draw).against answer db =
        (.ok shown, view db
          (billWrites (newBill config dto creatorUserId creatorReference total draw)
            (newShares config (newBill config dto creatorUserId creatorReference total draw) draw 0
              ((participantIds config dto).zip amounts)))) := by
  by_cases hgood : ∃ total, parseMoneyToMinor dto.total "total" = .ok total ∧
      (participantIds config dto).Nodup ∧ ∃ amounts, shareAmounts dto total = .ok amounts
  · obtain ⟨total, hparse, hunique, amounts, hamounts⟩ := hgood
    rw [createBill_against hparse hunique hamounts]
    cases hbody : (createBillTransaction config
        (newBill config dto creatorUserId creatorReference total draw)
        ((participantIds config dto).zip amounts) draw).alone db [] with
    | error e => exact Or.inl ⟨e, rfl⟩
    | ok result =>
      obtain ⟨reply, writes⟩ := result
      obtain ⟨rfl, hid⟩ := createBillTransaction_alone_eq hbody
      obtain ⟨shown, hshown⟩ := get_against answer (newShares config
        (newBill config dto creatorUserId creatorReference total draw) draw 0
        ((participantIds config dto).zip amounts)) hid
      exact Or.inr ⟨total, amounts, shown, hparse, hunique, hamounts, hshown⟩
  · refine Or.inl (createBill_refused ?_)
    intro total hparse hunique amounts hamounts
    exact hgood ⟨total, hparse, hunique, amounts, hamounts⟩

/-- A request is accepted if and only if it can be split; then its shares are stored, and otherwise
nothing is. -/
theorem bill_splits_exactly (config : Config) (dto : CreateSplitBillDto)
    (creatorUserId creatorReference : String) (draw : Draw) (db : Database) (answer : Ask → Answer)
    (hne : dto.participants ≠ []) :
    (∀ shown db', (createBill config dto creatorUserId creatorReference draw).against answer db =
        (.ok shown, db') → ∃ total rows, parseMoneyToMinor dto.total "total" = .ok total ∧
          StoredSplit config dto draw db db' total rows) ∧
      (∀ e db', (createBill config dto creatorUserId creatorReference draw).against answer db =
        (.error e, db') → db' = db) ∧
      (FreshDraw draw dto.participants.length db →
        ((∃ shown db', (createBill config dto creatorUserId creatorReference draw).against answer db =
          (.ok shown, db')) ↔ Splits config dto)) := by
  have hcases := createBill_cases config dto creatorUserId creatorReference draw db answer
  refine ⟨?_, ?_, ?_⟩
  · intro shown db' haccepted
    rcases hcases with ⟨e, hrefused⟩ | ⟨total, amounts, _, hparse, hunique, hamounts, hresult⟩
    · rw [haccepted] at hrefused
      cases hrefused
    · rw [haccepted] at hresult
      cases hresult
      exact ⟨total, _, hparse, storedSplit_newShares hparse hunique hamounts hne⟩
  · intro e db' hrefused
    rcases hcases with ⟨e', hrefused'⟩ | ⟨total, amounts, _, -, -, -, hresult⟩
    · rw [hrefused] at hrefused'
      cases hrefused'
      rfl
    · rw [hrefused] at hresult
      cases hresult
  · intro hfresh
    constructor
    · rintro ⟨shown, db', haccepted⟩
      rcases hcases with ⟨e, hrefused⟩ | ⟨total, amounts, _, hparse, hunique, hamounts, -⟩
      · rw [haccepted] at hrefused
        cases hrefused
      · have hsplits := (shareAmounts_ok_iff (parseMoneyToMinor_pos hparse) hne).mp ⟨_, hamounts⟩
        exact ⟨total, hparse, hunique, hsplits⟩
    · rintro ⟨total, hparse, hunique, hsplits⟩
      obtain ⟨amounts, hamounts⟩ :=
        (shareAmounts_ok_iff (parseMoneyToMinor_pos hparse) hne).mpr hsplits
      have hfits : Ledger.fitsBigint total := by
        have hlarge := parseMoneyToMinor_le hparse
        have hsmall := parseMoneyToMinor_pos hparse
        unfold Ledger.fitsBigint Ledger.MAX_SAFE_INTEGER at *
        omega
      have hinsertable := insertable_newShares creatorUserId creatorReference hfresh hparse hunique
        hamounts hne
      obtain ⟨writes, hbody⟩ := createBillTransaction_alone hfresh.bill
        (parseMoneyToMinor_pos hparse) hfits hinsertable
      obtain ⟨rfl, hid⟩ := createBillTransaction_alone_eq hbody
      set rows := newShares config (newBill config dto creatorUserId creatorReference total draw)
        draw 0 ((participantIds config dto).zip amounts)
      obtain ⟨shown, hshown⟩ := get_against answer rows hid
      refine ⟨shown, view db
        (billWrites (newBill config dto creatorUserId creatorReference total draw) rows), ?_⟩
      rw [createBill_against hparse hunique hamounts, hbody]
      exact hshown

/-- Ten dollars for three participants. -/
def tenDollars : CreateSplitBillDto :=
  { total := "10.00", currency := "USD", mode := .equal, deadline := none,
    participants := [⟨"ann", none⟩, ⟨"bob", none⟩, ⟨"eve", none⟩] }

theorem bill_splits_ten_dollars :
    ∃ shown db' total rows,
      (createBill scripted.config tenDollars "ann" "ann" (scriptedDraw 0)).against
        (fun _ => .flag false) Database.initial = (.ok shown, db') ∧
      StoredSplit scripted.config tenDollars (scriptedDraw 0) Database.initial db' total rows := by
  have hfresh : FreshDraw (scriptedDraw 0) tenDollars.participants.length Database.initial :=
    ⟨by simp [Database.initial], by simp [Database.initial], by decide, by decide⟩
  have hsplits : Splits scripted.config tenDollars :=
    ⟨1000, rfl, by decide, fun _ => by decide, fun h => absurd h (by decide)⟩
  obtain ⟨hstored, -, haccepted⟩ := bill_splits_exactly scripted.config tenDollars "ann" "ann"
    (scriptedDraw 0) Database.initial (fun _ => .flag false) (by decide)
  obtain ⟨shown, db', h⟩ := (haccepted hfresh).mpr hsplits
  obtain ⟨total, rows, -, hrows⟩ := hstored shown db' h
  exact ⟨shown, db', total, rows, h, hrows⟩

end Payments

end PeerLedger
