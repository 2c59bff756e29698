import PeerLedger.Notifications.Deliveries
import PeerLedger.Formats.IsoDate
import PeerLedger.Listings.Pages
import Mathlib.Data.Prod.Lex
import Mathlib.Data.String.Basic

/-!
# The activity feed

`ActivityFeedService.listForUser` lists the feed of a user in pages, the newest rows first.  A cursor
names the last row of a page: its time, as a text in JSON with milliseconds, and its id.

The column `created_at` has microseconds, and a row is loaded with its milliseconds only.  The next
page therefore starts below the millisecond in which the last row was inserted, and the other rows of
that millisecond are in no page (`feed_loses_row`).  All rows are listed, each once, if and only if no
page ends before such a row (`activity_feed_pages`).
-/

namespace PeerLedger

namespace Notifications

open Formats

/-! ### Rows -/

/-- A row of `activity_feed` with the time of its insertion in microseconds.  The id is one that
`gen_random_uuid()` returns, and the time is one that a `Date` can have. -/
structure FeedRow where
  item : ActivityFeedItem
  createdAt : Int
  isUuid : Ledger.isUuid item.id = true
  isSmall : item.id.toList.map Char.toLower = item.id.toList
  isTime : -IsoDate.maxTime ≤ createdAt / 1000 ∧ createdAt / 1000 ≤ IsoDate.maxTime

/-- The table: its primary key is unique. -/
structure Feed where
  rows : List FeedRow
  ids : (rows.map fun row => row.item.id).Nodup

/-- A loaded row: the driver truncates the time to milliseconds. -/
structure LoadedItem where
  item : ActivityFeedItem
  createdAt : Int

def FeedRow.load (row : FeedRow) : LoadedItem := ⟨row.item, row.createdAt / 1000⟩

/-- The columns by which the feed is ordered. -/
def FeedRow.key (row : FeedRow) : Int × String := (row.createdAt, row.item.id)

/-- `(a, b) < (c, d)` for a time and a `uuid`. -/
def rowLess (a b : Int × String) : Bool := a.1 < b.1 || a.1 = b.1 && a.2 < b.2

/-! ### Cursors -/

def encodeCursor (createdAt : Int) (id : String) : String :=
  String.ofList (Base64Url.encode (Utf8.encode (JsonText.stringify (.object (JsonText.stringMembers
    [("createdAt".toList, IsoDate.toISOString createdAt), ("id".toList, id.toList)])))))

/-- `new Date(text)`; `otherDates` are the texts of other forms that the engine takes for dates. -/
def readDate (otherDates : String → Option Int) (text : List Char) : Option Int :=
  match IsoDate.parse text with
  | some time => some time
  | none => otherDates (String.ofList text)

/-- The time and the id of a cursor; the error is a `BadRequestException`. -/
def decodeCursor (otherDates : String → Option Int) (value : String) :
    Except String (Int × String) :=
  match JsonText.parse (Utf8.decode (Base64Url.decode value.toList)) with
  | none => .error "Invalid activity cursor"
  | some parsed =>
    match parsed.member "createdAt".toList, parsed.member "id".toList with
    | some (.string createdAt), some (.string id) =>
      match readDate otherDates createdAt with
      | none => .error "Invalid activity cursor"
      | some createdAt =>
        if Ledger.isUuid (String.ofList id) then .ok (createdAt, String.ofList id)
        else .error "Invalid activity cursor"
    | _, _ => .error "Invalid activity cursor"

/-! ### Pages -/

structure ActivityFeedQuery where
  limit : Option Nat
  cursor : Option String
  eventType : Option String

structure ActivityFeedPage where
  items : List LoadedItem
  nextCursor : Option String

/-- The rows of a user, of the event type that the query names if any. -/
def isListed (userId : String) (eventType : Option String) (row : FeedRow) : Bool :=
  row.item.userId = some userId && eventType.all fun name => name = "" || row.item.eventType = name

/-- `(activity.created_at, activity.id) < (:createdAt, :id)`. -/
def isBelow (cursor : Int × String) (row : FeedRow) : Bool :=
  rowLess row.key (cursor.1 * 1000, String.ofList (cursor.2.toList.map Char.toLower))

/-- `ORDER BY activity.created_at DESC, activity.id DESC`. -/
def newestFirst (rows : List FeedRow) : List FeedRow :=
  rows.mergeSort fun a b => !rowLess a.key b.key

/-- The cursor of a query. -/
def readCursor (otherDates : String → Option Int) (query : ActivityFeedQuery) :
    Except String (Option (Int × String)) :=
  match query.cursor with
  | none => .ok none
  | some value => if value = "" then .ok none else (decodeCursor otherDates value).map some

def listForUser (otherDates : String → Option Int) (feed : Feed) (userId : String)
    (query : ActivityFeedQuery) : Except String ActivityFeedPage := do
  let limit := query.limit.getD 20
  let cursor ← readCursor otherDates query
  let selected := feed.rows.filter fun row =>
    isListed userId query.eventType row && cursor.all fun cursor => isBelow cursor row
  let rows := (newestFirst selected).take (limit + 1)
  let hasMore := limit < rows.length
  let items := if hasMore then rows.take limit else rows
  return {
    items := items.map FeedRow.load
    nextCursor :=
      if hasMore then
        items.getLast?.map fun last => encodeCursor last.load.createdAt last.load.item.id
      else none }

/-- The pages from a cursor on, each requested with the next cursor of the one before, until that is
null. -/
inductive Follows (otherDates : String → Option Int) (feed : Feed) (userId : String)
    (limit : Option Nat) (eventType : Option String) : Option String → List LoadedItem → Prop
  | last {cursor page} : listForUser otherDates feed userId ⟨limit, cursor, eventType⟩ = .ok page →
      page.nextCursor = none → Follows otherDates feed userId limit eventType cursor page.items
  | next {cursor page value rest} :
      listForUser otherDates feed userId ⟨limit, cursor, eventType⟩ = .ok page →
      page.nextCursor = some value →
      Follows otherDates feed userId limit eventType (some value) rest →
      Follows otherDates feed userId limit eventType cursor (page.items ++ rest)

/-- The listed rows of a user, the newest first. -/
def Feed.listing (feed : Feed) (userId : String) (eventType : Option String) : List FeedRow :=
  newestFirst (feed.rows.filter (isListed userId eventType))

/-- The row is below the cursor of the last row of a page. -/
def belowLast (last row : FeedRow) : Bool := isBelow (last.load.createdAt, last.item.id) row

variable {otherDates : String → Option Int} {feed : Feed} {userId : String} {limit : Option Nat}
variable {eventType : Option String}

/-! ### Cursors are read again -/

/-- A cursor is read again as it was written. -/
theorem decodeCursor_encodeCursor (otherDates : String → Option Int) {createdAt : Int} {id : String}
    (htime : -IsoDate.maxTime ≤ createdAt ∧ createdAt ≤ IsoDate.maxTime)
    (hid : Ledger.isUuid id = true) :
    decodeCursor otherDates (encodeCursor createdAt id) = .ok (createdAt, id) := by
  unfold decodeCursor encodeCursor
  rw [String.toList_ofList, Base64Url.decode_encode, Utf8.decode_encode,
    JsonText.parse_stringify_strings]
  have hcreatedAt : (JsonText.Value.object (JsonText.stringMembers
      [("createdAt".toList, IsoDate.toISOString createdAt), ("id".toList, id.toList)])).member
      "createdAt".toList = some (.string (IsoDate.toISOString createdAt)) := rfl
  have hmember : (JsonText.Value.object (JsonText.stringMembers
      [("createdAt".toList, IsoDate.toISOString createdAt), ("id".toList, id.toList)])).member
      "id".toList = some (.string id.toList) := rfl
  have hdate : readDate otherDates (IsoDate.toISOString createdAt) = some createdAt := by
    rw [readDate, IsoDate.parse_toISOString htime]
  simp only [hcreatedAt, hmember, hdate, String.ofList_toList, if_pos hid]

/-! ### The order of the rows -/

lemma rowLess_iff {a b : Int × String} : rowLess a b = true ↔ toLex a < toLex b := by
  rw [Prod.Lex.toLex_lt_toLex]
  simp [rowLess]

lemma not_rowLess_iff {a b : Int × String} : (!rowLess a b) = true ↔ toLex b ≤ toLex a := by
  rw [Bool.not_eq_true', ← not_lt, ← rowLess_iff, Bool.not_eq_true]

lemma newestFirst_perm (rows : List FeedRow) : (newestFirst rows).Perm rows :=
  List.mergeSort_perm _ _

lemma newestFirst_sorted (rows : List FeedRow) :
    (newestFirst rows).Pairwise fun a b => toLex b.key ≤ toLex a.key := by
  have hsorted : (newestFirst rows).Pairwise fun a b => (!rowLess a.key b.key) = true := by
    refine List.pairwise_mergeSort (fun a b c hab hbc => ?_) (fun a b => ?_) rows
    · rw [not_rowLess_iff] at hab hbc ⊢
      exact hbc.trans hab
    · rw [Bool.or_eq_true, not_rowLess_iff, not_rowLess_iff]
      exact le_total _ _
  exact hsorted.imp fun h => not_rowLess_iff.mp h

/-- Rows of the table with the same key are the same. -/
lemma Feed.key_inj (feed : Feed) {a b : FeedRow} (ha : a ∈ feed.rows) (hb : b ∈ feed.rows)
    (h : a.key = b.key) : a = b :=
  List.inj_on_of_nodup_map feed.ids ha hb (congrArg Prod.snd h)

/-- Rows can be selected before or after they are ordered. -/
lemma newestFirst_filter {rows : List FeedRow} (hrows : rows ⊆ feed.rows) (p : FeedRow → Bool) :
    newestFirst (rows.filter p) = (newestFirst rows).filter p := by
  refine List.Perm.eq_of_pairwise (fun a b ha hb hab hba => ?_) (newestFirst_sorted _)
    ((newestFirst_sorted rows).filter p)
    ((newestFirst_perm _).trans ((newestFirst_perm rows).filter p).symm)
  have ha' := (List.mem_filter.mp ((newestFirst_perm _).mem_iff.mp ha)).1
  have hb' := (newestFirst_perm rows).mem_iff.mp (List.mem_filter.mp hb).1
  exact feed.key_inj (hrows ha') (hrows hb') (toLex.injective (le_antisymm hba hab))

/-- The listing is ordered, and every row is in it once. -/
lemma Feed.listing_sorted (feed : Feed) (userId : String) (eventType : Option String) :
    (feed.listing userId eventType).Pairwise fun a b => toLex b.key < toLex a.key := by
  have hperm := newestFirst_perm (feed.rows.filter (isListed userId eventType))
  have hnodup : ((newestFirst (feed.rows.filter (isListed userId eventType))).map
      fun row => row.item.id).Nodup :=
    (hperm.map _).nodup_iff.mpr (feed.ids.sublist (List.filter_sublist.map _))
  have hne := List.pairwise_map.mp hnodup
  refine (newestFirst_sorted _).imp₂ (fun a b hle hne => lt_of_le_of_ne hle fun heq => ?_) hne
  exact hne (congrArg Prod.snd (toLex.injective heq)).symm

/-! ### The rows below a cursor -/

/-- The order of the cursor's columns, as `isBelow` compares them. -/
def cursorKey (cursor : Int × String) : Int × String :=
  (cursor.1 * 1000, String.ofList (cursor.2.toList.map Char.toLower))

lemma isBelow_iff {cursor : Int × String} {row : FeedRow} :
    isBelow cursor row = true ↔ toLex row.key < toLex (cursorKey cursor) := rowLess_iff

/-- The cursor of a row is not above the row. -/
lemma cursorKey_le (last : FeedRow) :
    toLex (cursorKey (last.load.createdAt, last.item.id)) ≤ toLex last.key := by
  have hid : String.ofList (last.item.id.toList.map Char.toLower) = last.item.id := by
    rw [last.isSmall, String.ofList_toList]
  have hle : last.createdAt / 1000 * 1000 ≤ last.createdAt :=
    Int.ediv_mul_le _ (by decide)
  rw [cursorKey, hid, FeedRow.key, FeedRow.load, Prod.Lex.toLex_le_toLex]
  rcases lt_or_eq_of_le hle with hlt | heq
  · exact .inl hlt
  · exact .inr ⟨heq, le_refl _⟩

lemma belowLast_eq (last row : FeedRow) :
    belowLast last row = rowLess row.key (last.createdAt / 1000 * 1000, last.item.id) := by
  have hid : String.ofList (last.item.id.toList.map Char.toLower) = last.item.id := by
    rw [last.isSmall, String.ofList_toList]
  rw [belowLast, isBelow, hid]
  rfl

/-- The rows below the last row of a page are older. -/
lemma belowLast_lt {last row : FeedRow} (h : belowLast last row = true) :
    toLex row.key < toLex last.key :=
  (isBelow_iff.mp h).trans_le (cursorKey_le last)

/-- The rows below a cursor are a final part of the listing. -/
lemma isBelow_mono {cursor : Int × String} {a b : FeedRow} (hab : toLex b.key < toLex a.key)
    (h : isBelow cursor a = true) : isBelow cursor b = true :=
  isBelow_iff.mpr (hab.trans (isBelow_iff.mp h))

/-- The rows from a cursor on. -/
def Feed.remaining (feed : Feed) (userId : String) (eventType : Option String)
    (cursor : Option (Int × String)) : List FeedRow :=
  (feed.listing userId eventType).filter fun row => cursor.all fun cursor => isBelow cursor row

lemma Feed.remaining_none (feed : Feed) (userId : String) (eventType : Option String) :
    feed.remaining userId eventType none = feed.listing userId eventType := by
  unfold Feed.remaining
  exact List.filter_eq_self.mpr fun _ _ => rfl

/-- What the query selects, in order. -/
lemma newestFirst_selected (feed : Feed) (userId : String) (eventType : Option String)
    (cursor : Option (Int × String)) :
    newestFirst (feed.rows.filter fun row =>
        isListed userId eventType row && cursor.all fun cursor => isBelow cursor row) =
      feed.remaining userId eventType cursor := by
  rw [Feed.remaining, Feed.listing, ← newestFirst_filter (List.filter_subset_self _),
    List.filter_filter]
  congr 1
  exact List.filter_congr fun row _ => Bool.and_comm _ _

/-- After a page come the rows of the listing that are below its last row. -/
lemma Feed.remaining_last (feed : Feed) {cursor : Option (Int × String)} {n : Nat} {last : FeedRow}
    (hlast : ((feed.remaining userId eventType cursor).take n).getLast? = some last) :
    feed.remaining userId eventType (some (last.load.createdAt, last.item.id)) =
      ((feed.remaining userId eventType cursor).drop n).filter (belowLast last) := by
  set rows := feed.remaining userId eventType cursor with hrows
  have hsorted : rows.Pairwise fun a b => toLex b.key < toLex a.key :=
    (feed.listing_sorted userId eventType).filter _
  obtain ⟨init, hinit⟩ := List.getLast?_eq_some_iff.mp hlast
  have htaken : last ∈ rows.take n := by
    rw [hinit]
    exact List.mem_append_right _ (List.mem_singleton_self last)
  have hmem : last ∈ rows := List.mem_of_mem_take htaken
  -- no row of the page is below its last row
  have hpage : (rows.take n).filter (belowLast last) = [] := by
    refine List.filter_eq_nil_iff.mpr fun row hrow hbelow => ?_
    have hlt := belowLast_lt hbelow
    rw [hinit] at hrow
    rcases List.mem_append.mp hrow with hrow | hrow
    · have htake := hsorted.sublist (List.take_sublist n rows)
      rw [hinit] at htake
      exact lt_asymm hlt ((List.pairwise_append.mp htake).2.2 row hrow last (by simp))
    · obtain rfl := List.mem_singleton.mp hrow
      exact lt_irrefl _ hlt
  have hrest : (rows.drop n).filter (belowLast last) = rows.filter (belowLast last) := by
    conv_rhs => rw [← List.take_append_drop n rows, List.filter_append, hpage, List.nil_append]
  rw [hrest, hrows, Feed.remaining, Feed.remaining, List.filter_filter]
  refine List.filter_congr fun row _ => ?_
  cases hbelow : belowLast last row with
  | false => exact hbelow
  | true =>
    have hcursor := (List.mem_filter.mp hmem).2
    cases cursor with
    | none => exact hbelow
    | some cursor =>
      have hrow : isBelow cursor row = true := isBelow_mono (belowLast_lt hbelow) hcursor
      rw [Option.all_some, Option.all_some, hrow]
      exact hbelow

/-! ### Pages -/

/-- The page of a query whose cursor is read. -/
lemma listForUser_eq {value : Option String} {cursor : Option (Int × String)}
    (hcursor : readCursor otherDates ⟨limit, value, eventType⟩ = .ok cursor) :
    listForUser otherDates feed userId ⟨limit, value, eventType⟩ = .ok
      { items := ((feed.remaining userId eventType cursor).take (limit.getD 20)).map FeedRow.load
        nextCursor :=
          if limit.getD 20 < (feed.remaining userId eventType cursor).length then
            ((feed.remaining userId eventType cursor).take (limit.getD 20)).getLast?.map fun last =>
              encodeCursor last.load.createdAt last.load.item.id
          else none } := by
  unfold listForUser
  rw [hcursor]
  simp only [bind, Except.bind, pure, Except.pure, newestFirst_selected]
  generalize feed.remaining userId eventType cursor = rows
  generalize limit.getD 20 = n
  have hmore : n < (rows.take (n + 1)).length ↔ n < rows.length := by
    rw [List.length_take]
    omega
  by_cases h : n < rows.length
  · have htake : (rows.take (n + 1)).take n = rows.take n := by
      rw [List.take_take, Nat.min_eq_left (Nat.le_succ n)]
    simp only [if_pos (hmore.mpr h), if_pos h, htake]
  · have hall : rows.take (n + 1) = rows.take n := by
      rw [List.take_of_length_le (by omega), List.take_of_length_le (by omega)]
    simp only [if_neg (mt hmore.mp h), if_neg h]
    rw [hall]

/-- The next cursor of a page is read as the place of its last row. -/
lemma readCursor_encodeCursor (otherDates : String → Option Int) (last : FeedRow) :
    readCursor otherDates
        ⟨limit, some (encodeCursor last.load.createdAt last.load.item.id), eventType⟩ =
      .ok (some (last.load.createdAt, last.item.id)) := by
  have hdecode := decodeCursor_encodeCursor otherDates last.isTime last.isUuid
  have hne : encodeCursor last.load.createdAt last.load.item.id ≠ "" := by
    intro hempty
    have hnone : decodeCursor otherDates "" = .error "Invalid activity cursor" := rfl
    change encodeCursor (last.createdAt / 1000) last.item.id = "" at hempty
    rw [hempty, hnone] at hdecode
    cases hdecode
  rw [readCursor]
  simp only [if_neg hne]
  change (decodeCursor otherDates (encodeCursor (last.createdAt / 1000) last.item.id)).map some = _
  rw [hdecode]
  rfl

/-- Following the cursors from a place on shows what the pages of the remaining rows show. -/
lemma follows_iff (hlimit : 1 ≤ limit.getD 20) {value : Option String}
    {cursor : Option (Int × String)} {all : List LoadedItem}
    (hcursor : readCursor otherDates ⟨limit, value, eventType⟩ = .ok cursor) :
    Follows otherDates feed userId limit eventType value all ↔
      ∃ rows, Listings.Collects belowLast (limit.getD 20) (feed.remaining userId eventType cursor) rows ∧
        all = rows.map FeedRow.load := by
  constructor
  · intro h
    induction h generalizing cursor with
    | @last value page hpage hnull =>
      obtain rfl := Except.ok.inj ((listForUser_eq hcursor).symm.trans hpage)
      by_cases hmore : limit.getD 20 < (feed.remaining userId eventType cursor).length
      · obtain ⟨last, hlast⟩ := Listings.exists_last hlimit hmore.le
        simp only [if_pos hmore, hlast] at hnull
        cases hnull
      · refine ⟨_, .last (not_lt.mp hmore), ?_⟩
        dsimp only
        rw [List.take_of_length_le (not_lt.mp hmore)]
    | @next value page value' rest hpage hnext _ ih =>
      obtain rfl := Except.ok.inj ((listForUser_eq hcursor).symm.trans hpage)
      by_cases hmore : limit.getD 20 < (feed.remaining userId eventType cursor).length
      · obtain ⟨last, hlast⟩ := Listings.exists_last hlimit hmore.le
        simp only [if_pos hmore, hlast, Option.map_some] at hnext
        obtain rfl := Option.some.inj hnext
        obtain ⟨rows, hrows, rfl⟩ := ih (readCursor_encodeCursor otherDates last)
        rw [feed.remaining_last hlast] at hrows
        exact ⟨_, .next hmore hlast hrows, (List.map_append).symm⟩
      · simp only [if_neg hmore] at hnext
        cases hnext
  · rintro ⟨rows, h, rfl⟩
    generalize hremaining : feed.remaining userId eventType cursor = remaining at h
    induction h generalizing value cursor with
    | @last remaining hend =>
      subst hremaining
      have hpage : listForUser otherDates feed userId _ = _ := listForUser_eq hcursor
      rw [if_neg (not_lt.mpr hend), List.take_of_length_le hend] at hpage
      exact .last hpage rfl
    | @next remaining rest last hmore hlast _ ih =>
      subst hremaining
      have hpage : listForUser otherDates feed userId _ = _ := listForUser_eq hcursor
      rw [if_pos hmore, hlast] at hpage
      rw [List.map_append]
      exact .next hpage rfl (ih (readCursor_encodeCursor otherDates last) (feed.remaining_last hlast))

/-- The rows that the first page starts with. -/
lemma follows_none_iff (hlimit : 1 ≤ limit.getD 20) {all : List LoadedItem} :
    Follows otherDates feed userId limit eventType none all ↔
      ∃ rows, Listings.Collects belowLast (limit.getD 20) (feed.listing userId eventType) rows ∧
        all = rows.map FeedRow.load := by
  rw [follows_iff hlimit rfl, Feed.remaining_none]

/-- The rows below a row are a final part of the listing. -/
lemma Feed.listing_closed (feed : Feed) (userId : String) (eventType : Option String) :
    Listings.Closed belowLast (feed.listing userId eventType) := fun _ =>
  (feed.listing_sorted userId eventType).imp fun hlt => isBelow_mono hlt

/-- The pages of a feed come to an end, and together they show exactly the listed rows, each once and
in order, if and only if each page after the first starts with a row that is below the last row before
it also when the time of the latter is truncated to milliseconds. -/
theorem activity_feed_pages (otherDates : String → Option Int) (feed : Feed) (userId : String)
    (limit : Option Nat) (eventType : Option String) (hlimit : 1 ≤ limit.getD 20) :
    (∃ all, Follows otherDates feed userId limit eventType none all) ∧
    ((∀ all, Follows otherDates feed userId limit eventType none all →
        all = (feed.listing userId eventType).map FeedRow.load) ↔
      ∀ k last next, 1 ≤ k → (feed.listing userId eventType)[k * limit.getD 20 - 1]? = some last →
        (feed.listing userId eventType)[k * limit.getD 20]? = some next →
        rowLess next.key (last.createdAt / 1000 * 1000, last.item.id) = true) := by
  have hcontinued : Listings.Continued belowLast (limit.getD 20) (feed.listing userId eventType) ↔
      ∀ k last next, 1 ≤ k → (feed.listing userId eventType)[k * limit.getD 20 - 1]? = some last →
        (feed.listing userId eventType)[k * limit.getD 20]? = some next →
        rowLess next.key (last.createdAt / 1000 * 1000, last.item.id) = true := by
    simp only [Listings.Continued, belowLast_eq]
  have hclosed := feed.listing_closed userId eventType
  obtain ⟨rows, hrows⟩ := Listings.exists_collects belowLast hlimit (feed.listing userId eventType)
  have hfollows : Follows otherDates feed userId limit eventType none (rows.map FeedRow.load) :=
    (follows_none_iff hlimit).mpr ⟨rows, hrows, rfl⟩
  refine ⟨⟨_, hfollows⟩, ?_⟩
  rw [← hcontinued]
  constructor
  · intro hall
    have hlength : rows.length = (feed.listing userId eventType).length := by
      simpa only [List.length_map] using congrArg List.length (hall _ hfollows)
    exact (Listings.collects_eq_iff hlimit hclosed hrows).mp
      (hrows.sublist.eq_of_length hlength)
  · intro hpages all hfollowed
    obtain ⟨rows', hrows', rfl⟩ := (follows_none_iff hlimit).mp hfollowed
    rw [(Listings.collects_eq_iff hlimit hclosed hrows').mpr hpages]

/-! ### Two rows of Ann's -/

/-- Ann has deposited money. -/
def itemOfAnn (id eventId : String) : ActivityFeedItem :=
  { id, eventId, userId := some "ann", eventType := "ledger.wallet.MoneyDeposited",
    aggregateId := "ann-wallet", payload := .obj [] }

def firstId : String := "00000000-0000-4000-8000-000000000001"
def secondId : String := "00000000-0000-4000-8000-000000000002"

lemma isUuid_firstId : Ledger.isUuid firstId = true := by decide +kernel

lemma isUuid_secondId : Ledger.isUuid secondId = true := by decide +kernel

lemma isSmall_firstId : firstId.toList.map Char.toLower = firstId.toList := by decide +kernel

lemma isSmall_secondId : secondId.toList.map Char.toLower = secondId.toList := by decide +kernel

lemma isTime_early {time : Int} (h : 0 ≤ time ∧ time ≤ 2000000) :
    -IsoDate.maxTime ≤ time / 1000 ∧ time / 1000 ≤ IsoDate.maxTime := by
  unfold IsoDate.maxTime
  omega

/-- Ann's first row. -/
def firstRow : FeedRow where
  item := itemOfAnn firstId "first"
  createdAt := 1000400
  isUuid := isUuid_firstId
  isSmall := isSmall_firstId
  isTime := isTime_early ⟨by decide, by decide⟩

lemma isTime_second {microseconds : Nat} (h : microseconds ≤ 900000) :
    -IsoDate.maxTime ≤ (1000400 + microseconds : Int) / 1000 ∧
      (1000400 + microseconds : Int) / 1000 ≤ IsoDate.maxTime := isTime_early (by omega)

/-- Ann's second row, inserted so much later. -/
def secondRow (microseconds : Nat) (h : microseconds ≤ 900000) : FeedRow where
  item := itemOfAnn secondId "second"
  createdAt := 1000400 + microseconds
  isUuid := isUuid_secondId
  isSmall := isSmall_secondId
  isTime := isTime_second h

lemma ids_annsFeed (microseconds : Nat) (h : microseconds ≤ 900000) :
    ([secondRow microseconds h, firstRow].map fun row => row.item.id).Nodup := by
  change [secondId, firstId].Nodup
  decide +kernel

/-- Ann's feed. -/
def annsFeed (microseconds : Nat) (h : microseconds ≤ 900000) : Feed where
  rows := [secondRow microseconds h, firstRow]
  ids := ids_annsFeed microseconds h

lemma listing_annsFeed {microseconds : Nat} (h : microseconds ≤ 900000) (hlater : 0 < microseconds) :
    (annsFeed microseconds h).listing "ann" none = [secondRow microseconds h, firstRow] := by
  have hless : rowLess (secondRow microseconds h).key firstRow.key = false := by
    rw [← Bool.not_eq_true', not_rowLess_iff, Prod.Lex.toLex_le_toLex]
    refine .inl ?_
    change (1000400 : Int) < 1000400 + microseconds
    omega
  change newestFirst [secondRow microseconds h, firstRow] = _
  refine List.mergeSort_of_pairwise ?_
  simp [hless]

/-- Two rows that are not of the same millisecond are shown, whatever the limit. -/
theorem activity_feed_pages_annsFeed :
    Follows (fun _ => none) (annsFeed 2000 (by decide)) "ann" (some 1) none none
      [(secondRow 2000 (by decide)).load, firstRow.load] := by
  have hlisting := listing_annsFeed (by decide : 2000 ≤ 900000) (by decide)
  obtain ⟨⟨all, hall⟩, hpages⟩ := activity_feed_pages (fun _ => none) (annsFeed 2000 (by decide))
    "ann" (some 1) none (by decide)
  rw [hlisting] at hpages
  have hshown := hpages.mpr (fun k last next hk hlast hnext => ?_) all hall
  · rw [hshown] at hall
    exact hall
  have hlt := (List.getElem?_eq_some_iff.mp hnext).1
  obtain rfl : k = 1 := by
    simp only [Option.getD_some, List.length_cons, List.length_nil] at hlt
    omega
  obtain rfl := Option.some.inj hlast
  obtain rfl := Option.some.inj hnext
  decide +kernel

/-- The second row is inserted a tenth of a millisecond after the first one.  With one row on a page,
the first one is shown on no page. -/
theorem feed_loses_row :
    Follows (fun _ => none) (annsFeed 100 (by decide)) "ann" (some 1) none none
        [(secondRow 100 (by decide)).load] ∧
      ((annsFeed 100 (by decide)).listing "ann" none).map FeedRow.load =
        [(secondRow 100 (by decide)).load, firstRow.load] := by
  have hlisting := listing_annsFeed (by decide : 100 ≤ 900000) (by decide)
  rw [hlisting]
  refine ⟨(follows_none_iff (by decide)).mpr ⟨[secondRow 100 (by decide)], ?_, rfl⟩, rfl⟩
  rw [hlisting]
  have hrest : Listings.Collects belowLast 1
      ([firstRow].filter (belowLast (secondRow 100 (by decide)))) [] := by
    have hbelow : belowLast (secondRow 100 (by decide)) firstRow = false := by decide +kernel
    rw [List.filter_cons_of_neg (by simp [hbelow]), List.filter_nil]
    exact .last (Nat.zero_le 1)
  exact .next (by decide) rfl hrest

end Notifications

end PeerLedger
