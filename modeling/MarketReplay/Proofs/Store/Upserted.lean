/-
A table as what was saved into it.

Whatever is upserted, in whatever order and however often, the table has one
row for each key, in the order in which the keys first came, and in each row
what was saved last under its key. `IsUpserted` says so of a table and of all
that was ever saved into it; one more row keeps it so (`IsUpserted.upsert`),
and it leaves no choice (`IsUpserted.unique`). So it does not matter that a row
is saved twice in a row (`foldl_upsert_again`).

Auctions are numbered by their rows. A row does not move, so the number of a
key can be told from the keys of any later table (`auctionId_of_grown`).
-/
import Mathlib.Data.List.Basic
import Mathlib.Data.List.Induction
import MarketReplay.Proofs.Store.Stored

namespace MarketReplay

-- ============================================================ first coming

section eraseDups

variable {κ : Type} [DecidableEq κ]

/-- What has come before does not come for the first time. -/
theorem eraseDups_concat (keys : List κ) (k : κ) :
    (keys ++ [k]).eraseDups
      = if k ∈ keys then keys.eraseDups else keys.eraseDups ++ [k] := by
  rw [List.eraseDups_append]
  unfold List.removeAll
  by_cases h : k ∈ keys
  · simp [h]
  · simp [h, List.eraseDups_cons]

/-- Without its repetitions a list has each key once. -/
theorem nodup_eraseDups (keys : List κ) : keys.eraseDups.Nodup := by
  induction keys using List.reverseRecOn with
  | nil => exact List.nodup_nil
  | append_singleton keys k ih =>
      rw [eraseDups_concat]
      split
      next => exact ih
      next hnew =>
        rw [List.nodup_append]
        refine ⟨ih, by simp, ?_⟩
        rintro a ha b hb rfl
        rw [List.mem_singleton] at hb
        exact hnew (hb ▸ List.mem_eraseDups.1 ha)

/-- What has come already may come again. -/
theorem eraseDups_append_of_subset {keys more : List κ}
    (h : ∀ k ∈ more, k ∈ keys) :
    (keys ++ more).eraseDups = keys.eraseDups := by
  have hnone : more.removeAll keys = [] := by
    unfold List.removeAll
    rw [List.filter_eq_nil_iff]
    intro k hk
    simpa using h k hk
  rw [List.eraseDups_append, hnone]
  simp

end eraseDups

-- ============================================================== one table

section upsert

variable {κ ρ : Type} [DecidableEq κ] {key : ρ → κ}

/-- An upsert leaves the keys of a table alone, or adds the new one behind
them. -/
theorem map_upsert (row : ρ) (table : List ρ) :
    (upsert key row table).map key
      = if key row ∈ table.map key then table.map key
        else table.map key ++ [key row] := by
  induction table with
  | nil => rfl
  | cons head tail ih =>
      rw [upsert]
      by_cases hhead : key head = key row
      · simp [hhead]
      · rw [if_neg hhead, List.map_cons, ih, List.map_cons]
        by_cases htail : key row ∈ tail.map key
        · rw [if_pos htail, if_pos (List.mem_cons_of_mem _ htail)]
        · have hnew : key row ∉ key head :: tail.map key :=
            fun hmem => htail (List.mem_of_ne_of_mem (Ne.symm hhead) hmem)
          rw [if_neg htail, if_neg hnew]
          rfl

/-- Rows of other keys stay, and the row itself is there. -/
theorem mem_upsert {row other : ρ} {table : List ρ}
    (hnodup : (table.map key).Nodup) (h : other ∈ upsert key row table) :
    other = row ∨ other ∈ table ∧ key other ≠ key row := by
  induction table with
  | nil => exact .inl (List.mem_singleton.1 h)
  | cons head tail ih =>
      rw [List.map_cons, List.nodup_cons] at hnodup
      rw [upsert] at h
      by_cases hhead : key head = key row
      · rw [if_pos hhead] at h
        rcases List.mem_cons.1 h with rfl | htail
        · exact .inl rfl
        · refine .inr ⟨List.mem_cons_of_mem _ htail, fun hkey => ?_⟩
          apply hnodup.1
          rw [hhead, ← hkey]
          exact List.mem_map_of_mem htail
      · rw [if_neg hhead] at h
        rcases List.mem_cons.1 h with rfl | htail
        · exact .inr ⟨List.mem_cons_self, hhead⟩
        · rcases ih hnodup.2 htail with hrow | ⟨hmem, hne⟩
          · exact .inl hrow
          · exact .inr ⟨List.mem_cons_of_mem _ hmem, hne⟩

/-- The table has one row for each key that was ever saved, in the order in
which the keys came, and in it what was saved last under the key. -/
structure IsUpserted (key : ρ → κ) (saved table : List ρ) : Prop where
  keys : table.map key = (saved.map key).eraseDups
  last : ∀ row ∈ table,
    (saved.filter fun other => key other = key row).getLast? = some row

namespace IsUpserted

variable {saved table : List ρ}

theorem nil (key : ρ → κ) : IsUpserted key [] [] where
  keys := rfl
  last := by nofun

/-- Such a table has one row for each key. -/
theorem nodup (h : IsUpserted key saved table) : (table.map key).Nodup :=
  h.keys ▸ nodup_eraseDups _

/-- Such a table has the keys that were saved, and no others. -/
theorem mem_keys (h : IsUpserted key saved table) (k : κ) :
    k ∈ table.map key ↔ k ∈ saved.map key := by
  rw [h.keys]
  exact List.mem_eraseDups

/-- One more row is saved into the table. -/
theorem upsert (h : IsUpserted key saved table) (row : ρ) :
    IsUpserted key (saved ++ [row]) (upsert key row table) where
  keys := by
    rw [map_upsert, List.map_append, List.map_singleton, eraseDups_concat,
      ← h.keys]
    simp only [h.mem_keys]
  last := by
    intro other hother
    rw [List.filter_append]
    rcases mem_upsert h.nodup hother with rfl | ⟨hmem, hne⟩
    · simp
    · simpa [Ne.symm hne] using h.last other hmem

/-- Some more rows are saved into the table, by induction on the rows. -/
theorem foldl (h : IsUpserted key saved table) (rows : List ρ) :
    IsUpserted key (saved ++ rows)
      (rows.foldl (fun table row => MarketReplay.upsert key row table)
        table) := by
  induction rows generalizing saved table with
  | nil => rwa [List.append_nil]
  | cons row rows ih =>
      rw [List.append_cons]
      exact ih (h.upsert row)

/-- Keys and last rows make the table. -/
theorem unique {again other : List ρ} (h : IsUpserted key saved table)
    (hagain : IsUpserted key again other)
    (hkeys : (again.map key).eraseDups = (saved.map key).eraseDups)
    (hlast : ∀ k, (again.filter fun row => key row = k).getLast?
      = (saved.filter fun row => key row = k).getLast?) :
    other = table := by
  have hsame : other.map key = table.map key := by
    rw [h.keys, hagain.keys, hkeys]
  have hlength : other.length = table.length := by
    simpa using congrArg List.length hsame
  refine List.ext_getElem hlength fun i hi hi' => ?_
  have hkey : key other[i] = key table[i] := by
    have hat := congrArg (·[i]?) hsame
    simpa [hi, hi'] using hat
  apply Option.some.inj
  rw [← h.last _ (List.getElem_mem hi'), ← hagain.last _ (List.getElem_mem hi),
    hkey]
  exact hlast _

end IsUpserted

/-- Rows that were just saved may be saved once more. -/
theorem foldl_upsert_again {saved table : List ρ}
    (h : IsUpserted key saved table) (rows : List ρ) :
    rows.foldl (fun table row => upsert key row table)
        (rows.foldl (fun table row => upsert key row table) table)
      = rows.foldl (fun table row => upsert key row table) table := by
  refine (h.foldl rows).unique ((h.foldl rows).foldl rows) ?_ fun k => ?_
  · rw [List.map_append]
    apply eraseDups_append_of_subset
    intro k hk
    rw [List.map_append]
    exact List.mem_append_right _ hk
  · rw [List.filter_append, List.filter_append, List.getLast?_append,
      List.getLast?_append]
    cases (rows.filter fun row => key row = k).getLast? <;> rfl

/-- No key moves when a row is upserted. -/
theorem prefix_upsert (row : ρ) (table : List ρ) :
    table.map key <+: (upsert key row table).map key := by
  rw [map_upsert]
  split
  · exact List.prefix_rfl
  · exact List.prefix_append ..

end upsert

section places

variable {κ ρ : Type} [DecidableEq κ] [BEq κ] [LawfulBEq κ] {key : ρ → κ}

omit [DecidableEq κ] [LawfulBEq κ] in
/-- The place of a row is the place of its key. -/
theorem findIdx_eq_idxOf (table : List ρ) (k : κ) :
    table.findIdx (key · == k) = (table.map key).idxOf k := by
  unfold List.idxOf
  rw [List.findIdx_map]
  rfl

/-- It is the same among the keys of any later table. -/
theorem findIdx_of_grown (row : ρ) {table : List ρ} {keys : List κ}
    (h : (upsert key row table).map key <+: keys) :
    table.findIdx (key · == key row) = keys.idxOf (key row) := by
  obtain ⟨more, rfl⟩ := h
  rw [findIdx_eq_idxOf, map_upsert]
  by_cases hmem : key row ∈ table.map key
  · rw [if_pos hmem, List.idxOf_append, if_pos hmem]
  · rw [if_neg hmem, List.append_assoc, List.idxOf_append, if_neg hmem,
      List.idxOf_eq_length hmem]
    simp

omit [DecidableEq κ] [BEq κ] [LawfulBEq κ] in
/-- Marks on the rows do not show in their keys. -/
theorem map_mapIdx_key {mark : Nat → ρ → ρ}
    (hkey : ∀ i row, key (mark i row) = key row) (table : List ρ) :
    (table.mapIdx mark).map key = table.map key := by
  refine List.ext_getElem? fun i => ?_
  rw [List.getElem?_map, List.getElem?_mapIdx, List.getElem?_map]
  cases table[i]? with
  | none => rfl
  | some row => exact congrArg some (hkey i row)

/-- Rows that are marked with their places keep their marks. -/
theorem upsert_mapIdx {mark : Nat → ρ → ρ}
    (hkey : ∀ i row, key (mark i row) = key row) (row : ρ) (table : List ρ) :
    upsert key (mark (table.findIdx (key · == key row)) row)
        (table.mapIdx mark)
      = (upsert key row table).mapIdx mark := by
  induction table generalizing mark with
  | nil => rfl
  | cons head tail ih =>
      rw [List.mapIdx_cons, upsert, upsert, hkey, hkey, List.findIdx_cons]
      by_cases hhead : key head = key row
      · simp [hhead]
      · have hne : (key head == key row) = false := beq_eq_false_iff_ne.2 hhead
        rw [if_neg hhead, if_neg hhead, hne, List.mapIdx_cons]
        exact congrArg _ (ih fun i => hkey (i + 1))

end places

-- =============================================================== the numbers

/-- The number of the auction with a key, given the keys of the rows. -/
def numberIn (keys : List (Nat × String)) (key : Nat × String) : Int :=
  keys.idxOf key + 1

/-- Different keys have different numbers. -/
theorem numberIn_injective {keys : List (Nat × String)}
    {key other : Nat × String} (hkey : key ∈ keys)
    (h : numberIn keys key = numberIn keys other) : key = other := by
  have hplace : keys.idxOf key = keys.idxOf other := by
    unfold numberIn at h
    omega
  exact (List.idxOf_inj hkey).1 hplace

/-- An auction stored in the row at a position. -/
def Auction.inRow (i : Nat) (auction : Auction) : Auction :=
  auction.numbered (i + 1)

theorem Auction.key_inRow (i : Nat) (auction : Auction) :
    (auction.inRow i).key = auction.key := rfl

namespace Tables

variable {tables : Tables}

/-- The number that an auction is given can be told from the keys of any later
table. -/
theorem auctionId_of_grown {auction : Auction} {keys : List (Nat × String)}
    (h : (tables.saveAuction auction).auctions.map Auction.key <+: keys) :
    tables.auctionId auction = numberIn keys auction.key :=
  congrArg (fun place : Nat => (place : Int) + 1)
    (findIdx_of_grown (auction.numbered _) h)

/-- No auction moves when others are saved. -/
theorem prefix_saveAuctions (tables : Tables) (auctions : List Auction) :
    tables.auctions.map Auction.key
      <+: (tables.saveAuctions auctions).2.auctions.map Auction.key := by
  induction auctions generalizing tables with
  | nil => exact List.prefix_rfl
  | cons auction auctions ih =>
      exact (prefix_upsert _ _).trans (ih (tables.saveAuction auction))

/-- The numbers answered are those of any later table. -/
theorem saveAuctions_fst {auctions : List Auction}
    {keys : List (Nat × String)}
    (h : (tables.saveAuctions auctions).2.auctions.map Auction.key <+: keys) :
    (tables.saveAuctions auctions).1
      = auctions.map fun auction => numberIn keys auction.key := by
  induction auctions generalizing tables with
  | nil => rfl
  | cons auction auctions ih =>
      have hfirst := (prefix_saveAuctions _ auctions).trans h
      rw [saveAuctions, List.map_cons, auctionId_of_grown hfirst]
      exact congrArg _ (ih h)

/-- Each auction is stored with the number of its row. -/
theorem saveAuctions_snd {rows auctions : List Auction}
    (h : tables.auctions = rows.mapIdx Auction.inRow) :
    (tables.saveAuctions auctions).2 = { tables with
      auctions := (auctions.foldl (fun table auction =>
        upsert Auction.key auction table) rows).mapIdx Auction.inRow } := by
  induction auctions generalizing tables rows with
  | nil => rw [List.foldl_nil, ← h]; rfl
  | cons auction auctions ih =>
      have hplace : tables.auctions.findIdx (·.key == auction.key)
          = rows.findIdx (·.key == auction.key) := by
        rw [h, findIdx_eq_idxOf, findIdx_eq_idxOf,
          map_mapIdx_key Auction.key_inRow]
      have hrow : (tables.saveAuction auction).auctions
          = (upsert Auction.key auction rows).mapIdx Auction.inRow := by
        rw [saveAuction_eq, auctionId, hplace, h]
        exact upsert_mapIdx Auction.key_inRow auction rows
      exact ih hrow

/-- The orders up to the first that has no auction are stored. -/
theorem saveOrders_snd (tables : Tables) (orders : List Order) :
    (tables.saveOrders orders).2 = { tables with
      orders := (orders.takeWhile (·.auctionId.isSome)).foldl
        (fun table order => upsert Order.key order table) tables.orders } := by
  induction orders generalizing tables with
  | nil => rfl
  | cons order orders ih =>
      rw [saveOrders, List.takeWhile_cons]
      cases order.auctionId with
      | none => rfl
      | some id => exact ih _

/-- An order without an auction ends the storing. -/
theorem saveOrders_of_unbound {order : Order} {before : List Order}
    (hbefore : ∀ order ∈ before, order.auctionId ≠ none)
    (h : order.auctionId = none) (tables : Tables) (after : List Order) :
    tables.saveOrders (before ++ order :: after)
      = (.error (.unboundOrder order.blockHash),
        (tables.saveOrders before).2) := by
  induction before generalizing tables with
  | nil => simp only [List.nil_append, saveOrders, h]
  | cons first before ih =>
      obtain ⟨hfirst, hrest⟩ := List.forall_mem_cons.1 hbefore
      obtain ⟨id, hid⟩ := Option.ne_none_iff_exists'.1 hfirst
      rw [List.cons_append, saveOrders, saveOrders, hid]
      exact ih hrest _

/-- Nothing else does. -/
theorem saveOrders_ok_iff (tables : Tables) (orders : List Order) :
    (tables.saveOrders orders).1 = .ok ()
      ↔ ∀ order ∈ orders, order.auctionId ≠ none := by
  induction orders generalizing tables with
  | nil => simp [saveOrders]
  | cons order orders ih =>
      rw [saveOrders, List.forall_mem_cons]
      cases order.auctionId with
      | none => simp
      | some id => simpa using ih _

end Tables

end MarketReplay
