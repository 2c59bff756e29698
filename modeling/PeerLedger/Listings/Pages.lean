import Mathlib.Data.List.Basic
import Mathlib.Data.List.Pairwise
import Mathlib.Order.Basic

/-!
# Listings in pages

A listing is shown in pages of at most `limit` rows.  Each page but the first shows rows that are
`below` the last row of the page before it; whether there is a further page is known from one more
row.  `Collects` says which rows all the pages show together.

A row that is not below the last row of the page before it is in no page.  When the rows below a row
are always a final part of the listing, every row is in a page if and only if each page after the
first starts below the last row before it (`collects_eq_iff`).
-/

namespace Listings

variable {α : Type} {below : α → α → Bool} {limit : Nat} {rows all : List α}

/-- The pages of the remaining rows show `all` together. -/
inductive Collects (below : α → α → Bool) (limit : Nat) : List α → List α → Prop
  | last {rows : List α} : rows.length ≤ limit → Collects below limit rows rows
  | next {rows rest : List α} {last : α} : limit < rows.length → (rows.take limit).getLast? = some last →
      Collects below limit ((rows.drop limit).filter (below last)) rest →
      Collects below limit rows (rows.take limit ++ rest)

/-- Each page after the first starts below the last row before it. -/
def Continued (below : α → α → Bool) (limit : Nat) (rows : List α) : Prop :=
  ∀ k last next, 1 ≤ k → rows[k * limit - 1]? = some last → rows[k * limit]? = some next →
    below last next = true

/-- The rows below a row are a final part of the listing. -/
def Closed (below : α → α → Bool) (rows : List α) : Prop :=
  ∀ last, rows.Pairwise fun x y => below last x = true → below last y = true

/-- The last row of a full page. -/
lemma getLast?_take (hlimit : 0 < limit) (h : limit ≤ rows.length) :
    (rows.take limit).getLast? = rows[limit - 1]? := by
  rw [List.getLast?_eq_getElem?, List.length_take_of_le h, List.getElem?_take_of_lt (by omega)]

lemma exists_last (hlimit : 0 < limit) (h : limit ≤ rows.length) :
    ∃ last, (rows.take limit).getLast? = some last := by
  rw [getLast?_take hlimit h]
  exact ⟨_, List.getElem?_eq_getElem (by omega)⟩

/-- The pages come to an end. -/
theorem exists_collects (below : α → α → Bool) (hlimit : 0 < limit) (rows : List α) :
    ∃ all, Collects below limit rows all := by
  induction hn : rows.length using Nat.strongRecOn generalizing rows with
  | ind n ih =>
    rcases Nat.lt_or_ge limit rows.length with hmore | hend
    · obtain ⟨last, hlast⟩ := exists_last hlimit (Nat.le_of_lt hmore)
      have hshorter : ((rows.drop limit).filter (below last)).length < n := by
        have hfilter := List.length_filter_le (below last) (rows.drop limit)
        rw [List.length_drop] at hfilter
        omega
      obtain ⟨rest, hrest⟩ := ih _ hshorter _ rfl
      exact ⟨_, .next hmore hlast hrest⟩
    · exact ⟨rows, .last hend⟩

/-- Only rows of the listing are shown, each at most once and in their order. -/
theorem Collects.sublist (h : Collects below limit rows all) : all.Sublist rows := by
  induction h with
  | last => exact List.Sublist.refl _
  | @next rows rest last _ _ _ ih =>
    have htail := ih.trans List.filter_sublist
    simpa only [List.take_append_drop] using (List.Sublist.refl (rows.take limit)).append htail

/-- The pages after the first are those of the other rows. -/
lemma continued_iff {last next : α} {tail : List α} (hlimit : 0 < limit) (hlong : limit < rows.length)
    (hlast : (rows.take limit).getLast? = some last) (htail : rows.drop limit = next :: tail) :
    Continued below limit rows ↔ below last next = true ∧ Continued below limit (next :: tail) := by
  have hlast' : rows[1 * limit - 1]? = some last := by
    rw [Nat.one_mul, ← getLast?_take hlimit (Nat.le_of_lt hlong), hlast]
  have hshift : ∀ n, (next :: tail)[n]? = rows[limit + n]? := fun n => by
    rw [← htail, List.getElem?_drop]
  constructor
  · intro h
    refine ⟨h 1 last next (Nat.le_refl 1) hlast' ?_, fun k last' next' hk hlast'' hnext' => ?_⟩
    · rw [Nat.one_mul, ← Nat.add_zero limit, ← hshift]
      rfl
    · have hpos : 0 < k * limit := Nat.mul_pos hk hlimit
      have hsucc : (k + 1) * limit = limit + k * limit := by rw [Nat.succ_mul, Nat.add_comm]
      rw [hshift] at hlast'' hnext'
      refine h (k + 1) last' next' (by omega) ?_ ?_
      · rw [hsucc, Nat.add_sub_assoc hpos]
        exact hlast''
      · rw [hsucc]
        exact hnext'
  · rintro ⟨hfirst, h⟩ k last' next' hk hlast'' hnext'
    rcases Nat.lt_or_ge k 2 with hone | htwo
    · obtain rfl : k = 1 := by omega
      rw [hlast'] at hlast''
      rw [Nat.one_mul, ← Nat.add_zero limit, ← hshift] at hnext'
      obtain rfl := Option.some.inj hlast''
      obtain rfl := Option.some.inj hnext'
      exact hfirst
    · obtain ⟨k, rfl⟩ := Nat.exists_eq_add_of_le' hk
      have hpos : 0 < k * limit := Nat.mul_pos (by omega) hlimit
      have hsucc : (k + 1) * limit = limit + k * limit := by rw [Nat.succ_mul, Nat.add_comm]
      refine h k last' next' (by omega) ?_ ?_
      · rw [hshift, ← Nat.add_sub_assoc hpos, ← hsucc]
        exact hlast''
      · rw [hshift, ← hsucc]
        exact hnext'

/-- Every row is in a page if and only if each page after the first starts below the last row before
it. -/
theorem collects_eq_iff (hlimit : 0 < limit) (hclosed : Closed below rows)
    (h : Collects below limit rows all) : all = rows ↔ Continued below limit rows := by
  induction h with
  | @last rows hend =>
    refine ⟨fun _ k last next hk _ hnext => ?_, fun _ => rfl⟩
    have hle : rows.length ≤ k * limit := Nat.le_trans hend (Nat.le_mul_of_pos_left limit hk)
    rw [List.getElem?_eq_none hle] at hnext
    cases hnext
  | @next rows rest last hmore hlast hrest ih =>
    obtain ⟨next, tail, htail⟩ : ∃ next tail, rows.drop limit = next :: tail :=
      List.exists_cons_of_ne_nil (by simpa using hmore)
    have hparts : rows.take limit ++ rest = rows ↔ rest = next :: tail := by
      have hsplit := List.take_append_drop limit rows
      rw [htail] at hsplit
      exact ⟨fun heq => List.append_cancel_left (heq.trans hsplit.symm), fun heq => heq ▸ hsplit⟩
    rw [hparts, continued_iff hlimit hmore hlast htail]
    have hclosed' : Closed below (next :: tail) := fun l =>
      (hclosed l).sublist (htail ▸ List.drop_sublist limit rows)
    rw [htail] at ih hrest
    by_cases hnext : below last next = true
    · have hall : (next :: tail).filter (below last) = next :: tail := by
        refine List.filter_eq_self.mpr fun x hx => ?_
        rcases List.mem_cons.mp hx with rfl | hx
        · exact hnext
        · exact (List.pairwise_cons.mp (hclosed' last)).1 x hx hnext
      rw [hall] at ih
      rw [ih hclosed', and_iff_right hnext]
    · -- the first row of the next page is lost
      refine iff_of_false (fun heq => ?_) fun hand => hnext hand.1
      have hsub := hrest.sublist
      rw [heq, List.filter_cons_of_neg hnext] at hsub
      have hlength := hsub.length_le
      have hfilter := List.length_filter_le (below last) tail
      simp only [List.length_cons] at hlength
      omega

end Listings
