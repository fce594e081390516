import MiniWallet.Safety.DoubleEntry

/-!
# At most one movement per key

Redis may lose its entries at any time and duplicates may run at the same time: what keeps a key
from moving money twice are the unique constraints. A domain row is unique for its key, and the
books have one entry for each row.

* `atMostOnePair_of_table`: the general argument, for any table whose rows the books account for.
* `once_per_key`: transfers, withdrawals, deposits and seeds.
-/

namespace MiniWallet

open Numeric Process System State

variable {sha256 : String → String} {t₀ : Time} {ok : State → Event → Prop} {c : Wallet}

/-! ## Tables without duplicates -/

/-- If the unique keys of all rows are different, then the values of a column that is part of them
are different. -/
theorem nodup_column {β γ : Type} {f : Row Ticks → Option β} {col : β → γ} (k : γ → UniqueKey)
    (hk : ∀ r b, f r = some b → k (col b) ∈ r.keys) {rows : List (Row Ticks)}
    (h : (rows.flatMap Row.keys).Nodup) : ((rows.filterMap f).map col).Nodup := by
  induction rows with
  | nil => exact .nil
  | cons r rows ih =>
      rw [List.flatMap_cons] at h
      have hrest := ih h.of_append_right
      cases hr : f r with
      | none => rwa [List.filterMap_cons_none hr]
      | some b =>
          rw [List.filterMap_cons_some hr, List.map_cons, List.nodup_cons]
          refine ⟨fun hmem => ?_, hrest⟩
          -- the key of `b` would be among the keys of a later row
          obtain ⟨b', hb', heq⟩ := List.mem_map.mp hmem
          obtain ⟨r', hr', hfr'⟩ := List.mem_filterMap.mp hb'
          refine List.disjoint_of_nodup_append h (hk r b hr) (List.mem_flatMap.mpr ⟨r', hr', ?_⟩)
          exact heq ▸ hk r' b' hfr'

/-- A value that is taken only once selects at most one element. -/
theorem length_filter_le_one {β γ : Type} [DecidableEq γ] {l : List β} {g : β → γ}
    (h : (l.map g).Nodup) (k : γ) : (l.filter (g · = k)).length ≤ 1 := by
  have hcount : (l.map g).count k ≤ 1 := List.nodup_iff_count_le_one.mp h k
  rw [List.count, List.countP_map, List.countP_eq_length_filter] at hcount
  exact hcount

/-- A value that is taken only once selects the element that takes it. -/
theorem filter_eq_singleton {β γ : Type} [DecidableEq γ] {l : List β} {g : β → γ}
    (h : (l.map g).Nodup) {b : β} (hb : b ∈ l) : l.filter (g · = g b) = [b] := by
  have hone := length_filter_le_one h (g b)
  have hmem : b ∈ l.filter (g · = g b) := by simpa using hb
  match hsel : l.filter (g · = g b) with
  | [] =>
      rw [hsel] at hmem
      cases hmem
  | [b'] =>
      rw [hsel, List.mem_singleton] at hmem
      rw [hmem]
  | _ :: _ :: _ => simp [hsel] at hone

/-- The columns of the domain tables that are unique. -/
structure Database.UniqueColumns (db : Database) : Prop where
  transfer_id : (db.transfers.map (·.id)).Nodup
  transfer_key : (db.transfers.map (·.idempotencyKey)).Nodup
  deposit_id : (db.deposits.map (·.id)).Nodup
  deposit_reference : (db.deposits.map (·.externalReference)).Nodup
  withdrawal_id : (db.withdrawals.map (·.id)).Nodup
  withdrawal_key : (db.withdrawals.map (·.idempotencyKey)).Nodup

/-- In every run the unique columns have no duplicates. -/
theorem unique_columns (h : WalletRun sha256 t₀ ok c) : c.shared.db.UniqueColumns := by
  have hkeys : c.shared.db.keys.Nodup := (keys_nodup h 0).of_append_right
  -- each column of a table is the key of its rows
  constructor
  · refine nodup_column (.pkey .transfers) (fun r t hr => ?_) hkeys
    cases r <;> cases hr
    simp [Row.keys]
  · refine nodup_column .transferIdempotencyKey (fun r t hr => ?_) hkeys
    cases r <;> cases hr
    simp [Row.keys]
  · refine nodup_column (.pkey .deposits) (fun r d hr => ?_) hkeys
    cases r <;> cases hr
    simp [Row.keys]
  · refine nodup_column .depositExternalReference (fun r d hr => ?_) hkeys
    cases r <;> cases hr
    simp [Row.keys]
  · refine nodup_column (.pkey .withdrawals) (fun r w hr => ?_) hkeys
    cases r <;> cases hr
    simp [Row.keys]
  · refine nodup_column .withdrawalIdempotencyKey (fun r w hr => ?_) hkeys
    cases r <;> cases hr
    simp [Row.keys]

/-! ## Pairs of legs -/

/-- The legs are none, or the two legs of one movement. -/
def AtMostOnePair (ls : List (LedgerEntry Ticks)) : Prop :=
  ls = [] ∨ ∃ d k, Paired d k ∧ d.transactionId = k.transactionId ∧ ls.Perm [d, k]

/-- A condition on legs that is the same for both legs of an entry selects whole entries. -/
theorem filter_legs {p : LedgerEntry Ticks → Prop} {q : Entry Ticks → Prop} [DecidablePred p]
    [DecidablePred q] {js : List (Entry Ticks)} (hpq : ∀ e ∈ js, ∀ l ∈ e.legs, (p l ↔ q e)) :
    (js.flatMap Entry.legs).filter p = (js.filter q).flatMap Entry.legs := by
  induction js with
  | nil => rfl
  | cons e js ih =>
      have hrest := ih fun e' he' => hpq e' (List.mem_cons_of_mem _ he')
      have hfirst := hpq e (List.mem_cons_self ..)
      rw [List.flatMap_cons, List.filter_append, hrest]
      by_cases hq : q e
      · have hlegs : e.legs.filter p = e.legs :=
          List.filter_eq_self.mpr fun l hl => decide_eq_true ((hfirst l hl).mpr hq)
        rw [hlegs, List.filter_cons_of_pos (by simpa using hq), List.flatMap_cons]
      · have hlegs : e.legs.filter p = [] :=
          List.filter_eq_nil_iff.mpr fun l hl => by simpa using fun hp => hq ((hfirst l hl).mp hp)
        rw [hlegs, List.filter_cons_of_neg (by simpa using hq), List.nil_append]

/-- A condition that selects at most one entry of the books selects at most one pair of legs. -/
theorem Books.atMostOnePair {db : Database} {js : List (Entry Ticks)} (h : Books db js)
    {p : LedgerEntry Ticks → Prop} {q : Entry Ticks → Prop} [DecidablePred p] [DecidablePred q]
    (hpq : ∀ e ∈ js, ∀ l ∈ e.legs, (p l ↔ q e)) (hone : (js.filter q).length ≤ 1) :
    AtMostOnePair (db.ledgerEntries.filter p) := by
  have hperm : (db.ledgerEntries.filter p).Perm ((js.filter q).flatMap Entry.legs) :=
    filter_legs hpq ▸ h.ledger.filter _
  match hsel : js.filter q with
  | [] =>
      rw [hsel] at hperm
      exact .inl hperm.eq_nil
  | [e] =>
      have he : e ∈ js := (List.mem_filter.mp (hsel ▸ List.mem_singleton_self e)).1
      rw [hsel, List.flatMap_singleton] at hperm
      exact .inr ⟨e.debit, e.credit, h.paired he, e.double.transactionId.symm, hperm⟩
  | _ :: _ :: _ => simp [hsel] at hone

/-- The legs of one kind that belong to the rows with a given key. -/
def Database.legsFor {β : Type} (db : Database) (kind : EntryType) (rows : List β) (id : β → UUID)
    (key : β → String) (k : String) : List (LedgerEntry Ticks) :=
  db.ledgerEntries.filter fun l =>
    l.entryType = kind ∧ ∃ b ∈ rows, key b = k ∧ l.referenceId = some (id b)

/-- If the books have one entry for each row of a table, apart from rows that are not live, and the
identifiers and keys of the table are unique, then a key has at most one pair of legs. -/
theorem Books.atMostOnePair_of_table {β : Type} {db : Database} {js : List (Entry Ticks)}
    (h : Books db js) {rows : List β} {id : β → UUID} {key : β → String} {move : β → Movement Ticks}
    {kind : EntryType} {live : β → Bool}
    (hmoves : (movements js kind).Perm ((rows.filter live).map move))
    (href : ∀ b, (move b).reference = some (id b)) (hid : (rows.map id).Nodup)
    (hkey : (rows.map key).Nodup) (k : String) : AtMostOnePair (db.legsFor kind rows id key k) := by
  -- movements of a row of the table whose key is the one in question
  let named (m : Movement Ticks) : Prop := ∃ b ∈ rows, key b = k ∧ m.reference = some (id b)
  refine h.atMostOnePair (q := fun e => e.movement.kind = kind ∧ named e.movement) ?_ ?_
  · intro e _ l hl
    rw [Entry.kind_of_mem hl, Entry.reference_of_mem hl]
  · -- each entry of the kind stands for a live row
    have hcount : js.countP (fun e => e.movement.kind = kind ∧ named e.movement) =
        ((rows.filter live).map move).countP named := by
      rw [← hmoves.countP_eq, movements, List.countP_filter, List.countP_map]
      refine List.countP_congr fun e _ => ?_
      simp [and_comm]
    have hnamed : ∀ b ∈ rows.filter live, named (move b) → key b = k := by
      rintro b hb ⟨b', hb', hk, hr⟩
      have hbb' : id b = id b' := Option.some.inj ((href b).symm.trans hr)
      rw [List.inj_on_of_nodup_map hid (List.mem_of_mem_filter hb) hb' hbb']
      exact hk
    -- of which there is at most one
    calc (js.filter fun e => e.movement.kind = kind ∧ named e.movement).length
        = ((rows.filter live).map move).countP named := by
          rw [← hcount, List.countP_eq_length_filter]
      _ = (rows.filter live).countP fun b => named (move b) := List.countP_map ..
      _ ≤ (rows.filter live).countP fun b => key b = k :=
          List.countP_mono_left fun b hb hn => by simpa using hnamed b hb (by simpa using hn)
      _ ≤ rows.countP fun b => key b = k := List.filter_sublist.countP_le ..
      _ = (rows.filter fun b => key b = k).length := List.countP_eq_length_filter ..
      _ ≤ 1 := length_filter_le_one hkey k

/-! ## Seeds -/

/-- The legs of the seeds whose idempotency key, on one of the legs, is the given one. -/
def Database.seedLegs (db : Database) (key : String) : List (LedgerEntry Ticks) :=
  db.ledgerEntries.filter fun l => l.entryType = .seed ∧
    ∃ l' ∈ db.ledgerEntries, l'.entryType = .seed ∧ l'.idempotencyKey = some key ∧
      l'.transactionId = l.transactionId

/-- A list without duplicates whose elements are all equal has at most one. -/
theorem length_le_one_of_forall_eq {β : Type} {l : List β} (hnodup : l.Nodup)
    (h : ∀ a ∈ l, ∀ b ∈ l, a = b) : l.length ≤ 1 := by
  match l with
  | [] => simp
  | [a] => simp
  | a :: b :: l =>
      have hab : a = b := h a (by simp) b (by simp)
      rw [hab] at hnodup
      simp at hnodup

/-- A ledger leg is determined by its idempotency key. -/
theorem ledger_unique (h : WalletRun sha256 t₀ ok c) {l l' : LedgerEntry Ticks} {key : String}
    (hl : l ∈ c.shared.db.ledgerEntries) (hl' : l' ∈ c.shared.db.ledgerEntries)
    (hk : l.idempotencyKey = some key) (hk' : l'.idempotencyKey = some key) : l = l' := by
  have hrow : ∀ l : LedgerEntry Ticks, l ∈ c.shared.db.ledgerEntries →
      .ledger l ∈ c.shared.db.rows := by
    intro l hl
    obtain ⟨r, hr, heq⟩ := List.mem_filterMap.mp hl
    cases r <;> cases heq
    exact hr
  have hkey : ∀ l : LedgerEntry Ticks, l.idempotencyKey = some key →
      .ledgerIdempotencyKey key ∈ (Row.ledger l).keys := by
    intro l hl
    simp [Row.keys, hl]
  have heq := row_unique h (hrow l hl) (hrow l' hl') (hkey l hk) (hkey l' hk')
  injection heq

/-- An entry that shares its identifier with a seed leg that carries a key is itself a seed that
carries the key, on its credit leg. -/
theorem Books.credit_key {db : Database} {js : List (Entry Ticks)} (h : Books db js)
    {e : Entry Ticks} (he : e ∈ js) {l : LedgerEntry Ticks} {key : String}
    (hl : l ∈ db.ledgerEntries) (hkind : l.entryType = .seed) (hkey : l.idempotencyKey = some key)
    (hid : l.transactionId = e.transactionId) : e.credit.idempotencyKey = some key := by
  obtain ⟨e', he', hle'⟩ := List.mem_flatMap.mp (h.ledger.mem_iff.mp hl)
  have hee' : e' = e := by
    refine List.inj_on_of_nodup_map h.transactionIds he' he ?_
    rw [← Entry.transactionId_of_mem hle', hid]
  subst hee'
  have hseed := h.seeds e' he' (by rw [← Entry.kind_of_mem hle', hkind])
  rcases List.mem_cons.mp hle' with rfl | hle'
  · rw [hseed.2.2.1] at hkey
    cases hkey
  · rw [← List.mem_singleton.mp hle', hkey]

/-- A seed's idempotency key has at most one pair of legs. -/
theorem seed_atMostOnePair (h : WalletRun sha256 t₀ ok c) (key : String) :
    AtMostOnePair (c.shared.db.seedLegs key) := by
  obtain ⟨js, hjs⟩ := books_kept h
  refine hjs.atMostOnePair (q := fun e => e.movement.kind = .seed ∧
    ∃ l ∈ c.shared.db.ledgerEntries, l.entryType = .seed ∧ l.idempotencyKey = some key ∧
      l.transactionId = e.transactionId) ?_ ?_
  · intro e _ l hl
    rw [Entry.kind_of_mem hl, Entry.transactionId_of_mem hl]
  · have hnodup : js.Nodup := List.Nodup.of_map _ hjs.transactionIds
    refine length_le_one_of_forall_eq (hnodup.filter _) fun e he e' he' => ?_
    obtain ⟨he, hq⟩ := List.mem_filter.mp he
    obtain ⟨he', hq'⟩ := List.mem_filter.mp he'
    obtain ⟨-, l, hl, hkind, hkey, hid⟩ := of_decide_eq_true hq
    obtain ⟨-, l', hl', hkind', hkey', hid'⟩ := of_decide_eq_true hq'
    -- both credit legs carry the key, so they are one row of the ledger
    have hcredit : e.credit = e'.credit :=
      ledger_unique h (hjs.mem_ledger he (by simp [Entry.legs]))
        (hjs.mem_ledger he' (by simp [Entry.legs]))
        (hjs.credit_key he hl hkind hkey hid) (hjs.credit_key he' hl' hkind' hkey' hid')
    refine List.inj_on_of_nodup_map hjs.transactionIds he he' ?_
    calc e.transactionId = e.credit.transactionId := e.double.transactionId.symm
      _ = e'.credit.transactionId := by rw [hcredit]
      _ = e'.transactionId := e'.double.transactionId

/-! ## All kinds of movements -/

/-- Every key has at most one row, and money has moved at most once for it. -/
structure OncePerKey (db : Database) : Prop where
  transfers : ∀ key, (db.transfers.filter (·.idempotencyKey = key)).length ≤ 1 ∧
    AtMostOnePair (db.legsFor .transfer db.transfers (·.id) (·.idempotencyKey) key)
  withdrawals : ∀ key, (db.withdrawals.filter (·.idempotencyKey = key)).length ≤ 1 ∧
    AtMostOnePair (db.legsFor .withdrawal db.withdrawals (·.id) (·.idempotencyKey) key)
  deposits : ∀ ref, (db.deposits.filter (·.externalReference = ref)).length ≤ 1 ∧
    AtMostOnePair (db.legsFor .deposit db.deposits (·.id) (·.externalReference) ref)
  seeds : ∀ key, AtMostOnePair (db.seedLegs key)

/-- At most one movement per key, whatever happens to the entries of Redis. -/
theorem once_per_key (h : Reaches sha256 c) : OncePerKey c.shared.db := by
  obtain ⟨t₀, h⟩ := h
  obtain ⟨js, hjs⟩ := books_kept h
  have hcols := unique_columns h
  refine ⟨fun key => ⟨?_, ?_⟩, fun key => ⟨?_, ?_⟩, fun ref => ⟨?_, ?_⟩, seed_atMostOnePair h⟩
  · exact length_filter_le_one hcols.transfer_key key
  · exact hjs.atMostOnePair_of_table hjs.transfers (fun _ => rfl) hcols.transfer_id
      hcols.transfer_key key
  · exact length_filter_le_one hcols.withdrawal_key key
  · -- every withdrawal has a reservation, so all rows are live
    have hlive : (movements js .withdrawal).Perm
        ((c.shared.db.withdrawals.filter fun _ => true).map Withdrawal.reservation) := by
      simpa using hjs.reservations
    exact hjs.atMostOnePair_of_table hlive (fun _ => rfl) hcols.withdrawal_id hcols.withdrawal_key
      key
  · exact length_filter_le_one hcols.deposit_reference ref
  · exact hjs.atMostOnePair_of_table hjs.deposits (fun _ => rfl) hcols.deposit_id
      hcols.deposit_reference ref

/-- Two processes seed the same account with the same key. The second one runs into the unique
constraint after the first one has committed. -/
def seededTwiceSchedule : Schedule :=
  seededSchedule ++ [.spawn (.request (.seed ⟨⟨1⟩, ⟨false, 100, 0⟩, "seed", ⟨1000⟩⟩))] ++ steps 2 13

/-- A seed that was asked for twice is in the ledger once. -/
theorem once_per_key_seeded_twice :
    ∃ c, Reaches Sha256.hexdigest c ∧ (c.shared.db.seedLegs "seed").length = 2 ∧
      OncePerKey c.shared.db := by
  obtain ⟨c, hc, hlen⟩ := reaches_of_played
    (P := fun c => (c.shared.db.seedLegs "seed").length = 2)
    (show (played anyStep seededTwiceSchedule).any _ = true by decide +kernel)
  exact ⟨c, hc, hlen, once_per_key hc⟩

end MiniWallet
