import Mathlib.Data.List.Count
import Mathlib.Data.List.Perm.Basic
import Mathlib.Data.List.Sort
import Mathlib.Order.Basic

/-!
# Paging

A query that orders its rows by a key returns them in some order that agrees with the key: rows with
the same key come in any order, and in another order the next time. When every page is a query of
its own, rows can move across the boundary between two pages.

* `Descending`: an order in which a query may return the rows.
* `Descending.page`: what is cut out of it for one page.
* `take_perm`: the rows before a position do not depend on the order, unless rows with the same key
  stand on both sides of it.
* `pages_perm`: pages whose boundaries separate the rows contain every row once, whatever the
  orders.
* `separated_of_nodup`: between other pages some row is repeated.
-/

namespace Bookkeeping

variable {α κ : Type} [LinearOrder κ] {key : α → κ} {rows : List α}

/-- The rows, in an order that `ORDER BY key DESC` allows. -/
structure Descending (key : α → κ) (rows : List α) where
  list : List α
  perm : list.Perm rows
  sorted : list.Pairwise fun a b => key b ≤ key a

namespace Descending

/-- The rows that `OFFSET offset LIMIT limit` leaves. -/
def slice (o : Descending key rows) (offset limit : ℕ) : List α := (o.list.drop offset).take limit

/-- One page, counted from 1. -/
def page (o : Descending key rows) (number limit : ℕ) : List α :=
  o.slice ((number - 1) * limit) limit

/-- There is such an order. -/
def default (key : α → κ) (rows : List α) : Descending key rows where
  list := rows.mergeSort fun a b => key b ≤ key a
  perm := List.mergeSort_perm _ _
  sorted := by
    -- rows of one key may stand in either order: the comparison is a total preorder on rows
    have htrans : ∀ a b c : α, decide (key b ≤ key a) → decide (key c ≤ key b) →
        decide (key c ≤ key a) := by
      intro a b c hab hbc
      simp only [decide_eq_true_eq] at *
      exact hbc.trans hab
    have htotal : ∀ a b : α, decide (key b ≤ key a) || decide (key a ≤ key b) := by
      intro a b
      simpa using le_total (key b) (key a)
    exact (List.pairwise_mergeSort htrans htotal rows).imp fun h => of_decide_eq_true h

end Descending

/-! ## The rows before a position -/

/-- Rows with the key `t` stand on both sides of the position `b`. -/
def Straddles (key : α → κ) (rows : List α) (b : ℕ) (t : κ) : Prop :=
  rows.countP (fun x => t < key x) < b ∧ b < rows.countP (fun x => t ≤ key x)

variable {b : ℕ} {l : List α}

/-- Fewer rows than the position have a greater key than a row before the position. -/
theorem countP_lt_of_mem_take (hl : l.Pairwise fun a b => key b ≤ key a) {x : α}
    (hx : x ∈ l.take b) : l.countP (fun y => key x < key y) < b := by
  have hbefore : ∀ y ∈ l.drop b, key y ≤ key x := by
    rw [← List.take_append_drop b l] at hl
    exact fun y hy => (List.pairwise_append.mp hl).2.2 x hx y hy
  have hdrop : (l.drop b).countP (fun y => key x < key y) = 0 := by
    rw [List.countP_eq_zero]
    intro y hy
    simpa using hbefore y hy
  have htake : (l.take b).countP (fun y => key x < key y) < (l.take b).length :=
    List.countP_lt_length_iff.mpr ⟨x, hx, by simp⟩
  rw [← List.take_append_drop b l, List.countP_append, hdrop]
  exact htake.trans_le (List.length_take_le b l)

/-- More rows than the position have at least the key of a row after the position. -/
theorem lt_countP_of_mem_drop (hl : l.Pairwise fun a b => key b ≤ key a) {x : α}
    (hx : x ∈ l.drop b) : b < l.countP (fun y => key x ≤ key y) := by
  have hbefore : ∀ y ∈ l.take b, key x ≤ key y := by
    rw [← List.take_append_drop b l] at hl
    exact fun y hy => (List.pairwise_append.mp hl).2.2 y hy x hx
  have hlength : b < l.length := by
    have hpos := List.length_pos_of_mem hx
    rw [List.length_drop] at hpos
    omega
  have htake : (l.take b).countP (fun y => key x ≤ key y) = b := by
    rw [List.countP_eq_length.mpr (fun y hy => by simpa using hbefore y hy), List.length_take]
    omega
  have hdrop : 0 < (l.drop b).countP (fun y => key x ≤ key y) :=
    List.countP_pos_iff.mpr ⟨x, hx, by simp⟩
  rw [← List.take_append_drop b l, List.countP_append, htake]
  omega

/-- Without such rows the position separates the rows by a property that the order has no part
in. -/
theorem Descending.take_eq_filter (o : Descending key rows)
    (hb : ∀ x ∈ rows, ¬ Straddles key rows b (key x)) :
    o.list.take b = o.list.filter fun x => rows.countP (fun y => key x ≤ key y) ≤ b := by
  have hcount : ∀ p : α → Bool, o.list.countP p = rows.countP p := fun p => o.perm.countP_eq p
  conv_rhs => rw [← List.take_append_drop b o.list, List.filter_append]
  rw [List.filter_eq_self.mpr, List.filter_eq_nil_iff.mpr, List.append_nil]
  · intro x hx
    have hlt := lt_countP_of_mem_drop o.sorted hx
    rw [hcount] at hlt
    simpa using hlt
  · intro x hx
    have hlt := countP_lt_of_mem_take o.sorted hx
    rw [hcount] at hlt
    have hstraddle := hb x (o.perm.mem_iff.mp (List.mem_of_mem_take hx))
    rw [Straddles, not_and, not_lt] at hstraddle
    simpa using hstraddle hlt

/-- The rows before the position are then the same in all orders. -/
theorem take_perm (o p : Descending key rows) (hb : ∀ x ∈ rows, ¬ Straddles key rows b (key x)) :
    (o.list.take b).Perm (p.list.take b) := by
  rw [o.take_eq_filter hb, p.take_eq_filter hb]
  exact (o.perm.trans p.perm.symm).filter _

/-! ## Pages -/

/-- The pages of one order make up its beginning. -/
theorem take_mul (l : List α) (limit n : ℕ) :
    l.take (n * limit) = (List.range n).flatMap fun k => (l.drop (k * limit)).take limit := by
  induction n with
  | zero => simp
  | succ n ih =>
      rw [Nat.succ_mul, List.take_add, ih, List.range_succ, List.flatMap_append]
      simp

variable {limit : ℕ}

/-- A page is the same rows in all orders if it has such a position at both ends. -/
theorem slice_perm (o p : Descending key rows) (hfirst : ∀ x ∈ rows, ¬ Straddles key rows b (key x))
    (hlast : ∀ x ∈ rows, ¬ Straddles key rows (b + limit) (key x)) :
    (o.slice b limit).Perm (p.slice b limit) := by
  have hall := take_perm o p hlast
  rw [List.take_add, List.take_add] at hall
  have hbefore := (take_perm o p hfirst).append_right (p.slice b limit)
  exact (List.perm_append_left_iff _).mp (hall.trans hbefore.symm)

/-- The rows on both sides of a position. -/
theorem exists_neighbours (hpos : 0 < b) (hb : b < l.length) :
    ∃ before last next after, l = before ++ last :: next :: after ∧ before.length + 1 = b := by
  have hlast : b - 1 < l.length := by omega
  refine ⟨l.take (b - 1), l.get ⟨b - 1, hlast⟩, l.get ⟨b, hb⟩, l.drop (b + 1), ?_, ?_⟩
  · conv_lhs => rw [← List.take_append_drop (b - 1) l]
    have hsucc : b - 1 + 1 = b := by omega
    rw [List.drop_eq_getElem_cons hlast, hsucc, List.drop_eq_getElem_cons hb]
    rfl
  · rw [List.length_take]
    omega

variable {before after : List α} {last next : α} {t : κ}

/-- Rows with the key `t` on both sides of a position stand right before and after it. -/
theorem key_of_straddles
    (hl : (before ++ last :: next :: after).Pairwise fun a b => key b ≤ key a)
    (hb : Straddles key (before ++ last :: next :: after) (before.length + 1) t) :
    key last = t ∧ key next = t := by
  obtain ⟨hlow, hhigh⟩ := hb
  obtain ⟨-, hrest, hbefore⟩ := List.pairwise_append.mp hl
  obtain ⟨hlast, hnext⟩ := List.pairwise_cons.mp hrest
  have hnext := (List.pairwise_cons.mp hnext).1
  have hle : key next ≤ key last := hlast next List.mem_cons_self
  -- otherwise all rows up to the last one have a greater key
  have hkeyLast : key last ≤ t := by
    by_contra hgt
    rw [not_le] at hgt
    have hall : before.countP (fun x => t < key x) = before.length := by
      refine List.countP_eq_length.mpr fun x hx => ?_
      simpa using hgt.trans_le (hbefore x hx last List.mem_cons_self)
    rw [List.countP_append, List.countP_cons_of_pos (by simpa using hgt), hall] at hlow
    omega
  -- otherwise all rows from the next one on have a smaller key
  have hkeyNext : t ≤ key next := by
    by_contra hlt
    rw [not_le] at hlt
    have hnone : after.countP (fun x => t ≤ key x) = 0 := by
      refine List.countP_eq_zero.mpr fun x hx => ?_
      simpa using (hnext x hx).trans_lt hlt
    have hall := @List.countP_le_length _ (fun x => decide (t ≤ key x)) before
    rw [List.countP_append, List.countP_cons, List.countP_cons_of_neg (by simpa using hlt),
      hnone] at hhigh
    split at hhigh <;> omega
  exact ⟨le_antisymm hkeyLast (hkeyNext.trans hle), le_antisymm (hle.trans hkeyLast) hkeyNext⟩

/-- Neighbours with the same key can change places. -/
theorem pairwise_swap (hl : (before ++ last :: next :: after).Pairwise fun a b => key b ≤ key a)
    (heq : key last = key next) :
    (before ++ next :: last :: after).Pairwise fun a b => key b ≤ key a := by
  simp only [List.pairwise_append, List.pairwise_cons, List.forall_mem_cons] at hl ⊢
  obtain ⟨hbefore, ⟨⟨-, hlast⟩, hnext, hafter⟩, hcross⟩ := hl
  refine ⟨hbefore, ⟨⟨heq.le, hnext⟩, hlast, hafter⟩, fun x hx => ?_⟩
  obtain ⟨hxLast, hxNext, hxAfter⟩ := hcross x hx
  exact ⟨hxNext, hxLast, hxAfter⟩

/-- Where rows with one key stand on both sides of a position, a row can stand before it in one
order and after it in another. -/
theorem exists_swapped (hb : Straddles key rows b t) :
    ∃ (o p : Descending key rows) (x : α), 0 < b ∧ o.list[b - 1]? = some x ∧
    p.list[b]? = some x := by
  let o := Descending.default key rows
  have hcount : ∀ p : α → Bool, rows.countP p = o.list.countP p :=
    fun p => (o.perm.countP_eq p).symm
  rw [Straddles, hcount, hcount] at hb
  have hlength : b < o.list.length := hb.2.trans_le List.countP_le_length
  -- the two rows on the sides of the position have one key
  obtain ⟨before, last, next, after, hlist, rfl⟩ :=
    exists_neighbours (Nat.zero_lt_of_lt hb.1) hlength
  have hsorted := o.sorted
  have hperm := o.perm
  rw [hlist] at hb hsorted hperm
  obtain ⟨hkeyLast, hkeyNext⟩ := key_of_straddles hsorted hb
  -- the second order exchanges them, which leaves it sorted
  let p : Descending key rows :=
    { list := before ++ next :: last :: after
      perm := ((List.Perm.swap last next after).append_left before).trans hperm
      sorted := pairwise_swap hsorted (hkeyLast.trans hkeyNext.symm) }
  refine ⟨o, p, last, Nat.succ_pos _, ?_, ?_⟩
  · rw [hlist, Nat.add_sub_cancel, List.getElem?_append_right le_rfl]
    simp
  · show (before ++ next :: last :: after)[before.length + 1]? = _
    rw [List.getElem?_append_right (Nat.le_succ _)]
    simp

/-- The pages `1` to `n`, each cut out of an order of its own. -/
def pages (orders : ℕ → Descending key rows) (limit n : ℕ) : List α :=
  (List.range n).flatMap fun k => (orders (k + 1)).page (k + 1) limit

/-- No rows with the same key stand on both sides of a boundary between two pages. -/
def Separated (key : α → κ) (rows : List α) (limit : ℕ) : Prop :=
  ∀ k, ∀ x ∈ rows, ¬ Straddles key rows (k * limit) (key x)

/-- The rows with at least the key `t`, counted by whether their key is greater. -/
theorem countP_le_eq (rows : List α) (t : κ) :
    rows.countP (fun x => t ≤ key x) =
      rows.countP (fun x => t < key x) + (rows.map key).count t := by
  induction rows with
  | nil => rfl
  | cons x rows ih =>
      rw [List.countP_cons, List.countP_cons, List.map_cons, List.count_cons, ih]
      rcases lt_trichotomy t (key x) with hlt | rfl | hgt
      · simp [hlt, hlt.le, hlt.ne']
        omega
      · simp
        omega
      · simp [hgt.not_ge, hgt.not_gt, hgt.ne]

/-- Rows with different keys are separated everywhere. -/
theorem separated_of_nodup_keys (hkeys : (rows.map key).Nodup) : Separated key rows limit := by
  intro k x _ hb
  have hcount := List.nodup_iff_count_le_one.mp hkeys (key x)
  obtain ⟨hlow, hhigh⟩ := hb
  rw [countP_le_eq] at hhigh
  omega

/-- Enough pages contain every row once if their boundaries separate the rows. -/
theorem pages_perm (h : Separated key rows limit) (orders : ℕ → Descending key rows) {n : ℕ}
    (hn : rows.length ≤ n * limit) : (pages orders limit n).Perm rows := by
  let o := Descending.default key rows
  have hone : (pages orders limit n).Perm
      ((List.range n).flatMap fun k => (o.list.drop (k * limit)).take limit) := by
    refine List.Perm.flatMap_left _ fun k _ => ?_
    have hlast : ∀ x ∈ rows, ¬ Straddles key rows (k * limit + limit) (key x) := by
      rw [← Nat.succ_mul]
      exact h (k + 1)
    simpa [Descending.page, Descending.slice] using slice_perm (orders (k + 1)) o (h k) hlast
  rw [← take_mul, List.take_of_length_le (o.perm.length_eq ▸ hn)] at hone
  exact hone.trans o.perm

/-- A row at a position is on the page of that position. -/
theorem mem_page {o : Descending key rows} {i k : ℕ} {x : α} (hx : o.list[i]? = some x)
    (hfirst : k * limit ≤ i) (hlast : i < (k + 1) * limit) : x ∈ o.page (k + 1) limit := by
  rw [Nat.succ_mul] at hlast
  rw [Descending.page, Nat.add_sub_cancel, Descending.slice]
  refine List.mem_of_getElem? (i := i - k * limit) ?_
  rw [List.getElem?_take_of_lt (by omega), List.getElem?_drop, Nat.add_sub_cancel' hfirst, hx]

/-- If no row is ever on two pages, whatever the order of each page, then the boundaries of the
pages separate the rows. -/
theorem separated_of_nodup {n : ℕ} (hlimit : 0 < limit) (hn : rows.length ≤ n * limit)
    (hall : ∀ orders : ℕ → Descending key rows, (pages orders limit n).Nodup) :
    Separated key rows limit := by
  intro k x hx hb
  obtain ⟨o, p, y, hpos, ho, hp⟩ := exists_swapped hb
  obtain ⟨k, rfl⟩ : ∃ before, k = before + 1 :=
    Nat.exists_eq_add_one.mpr (Nat.pos_of_mul_pos_right hpos)
  have hrange : k + 1 < n := by
    have hlt : (k + 1) * limit < n * limit :=
      (hb.2.trans_le List.countP_le_length).trans_le hn
    exact Nat.lt_of_mul_lt_mul_right hlt
  have hfits : (k + 1) * limit = k * limit + limit := Nat.succ_mul k limit
  have hfitsNext : (k + 1 + 1) * limit = (k + 1) * limit + limit := Nat.succ_mul (k + 1) limit
  -- the page before the boundary comes from the one order, the page after it from the other
  let orders : ℕ → Descending key rows := fun number => if number = k + 1 then o else p
  have hfirst : y ∈ (orders (k + 1)).page (k + 1) limit := by
    rw [show orders (k + 1) = o from if_pos rfl]
    exact mem_page ho (by omega) (by omega)
  have hnext : y ∈ (orders (k + 1 + 1)).page (k + 1 + 1) limit := by
    rw [show orders (k + 1 + 1) = p from if_neg (by omega)]
    exact mem_page hp le_rfl (by omega)
  have hdisjoint := List.pairwise_iff_getElem.mp (List.nodup_flatMap.mp (hall orders)).2 k (k + 1)
    (by rw [List.length_range]; omega) (by rwa [List.length_range]) (Nat.lt_succ_self k)
  simp only [List.getElem_range, Function.onFun] at hdisjoint
  exact hdisjoint hfirst hnext

end Bookkeeping
