import EventLedger.Library.Ordering

namespace EventLedger.Library

/-- A query cuts one page out of the sorted rows. -/
def pageBy {α κ : Type} [LinearOrder κ] (key : α → κ) (items : List α) (limit offset : Nat) :
    List α :=
  ((orderBy key items).drop offset).take limit

section Keys
variable {κ : Type} [LinearOrder κ] {keys : List κ} {limit offset : Nat} {x : κ}

/-- The number of keys before one key. -/
def below (x : κ) (keys : List κ) : Nat := keys.countP fun y => decide (y < x)

/-- The keys of a page are the page of the keys. -/
theorem pageBy_map {α : Type} (key : α → κ) (items : List α) (limit offset : Nat) :
    (pageBy key items limit offset).map key = pageBy id (items.map key) limit offset := by
  rw [pageBy, pageBy, orderBy_map id key items, ← List.map_drop, ← List.map_take]
  rfl

/-- A key is on the page that covers its place. -/
theorem mem_pageBy (distinct : keys.Nodup) : x ∈ pageBy id keys limit offset ↔
    x ∈ keys ∧ offset ≤ below x keys ∧ below x keys < offset + limit := by
  have sorted := orderBy_ordered id keys
  have distinct' : (keys.map id).Nodup := by rwa [List.map_id]
  have first (n : Nat) : x ∈ (orderBy id keys).take n ↔ x ∈ keys ∧ below x keys < n :=
    sorted.mem_take distinct' n x
  have cut : (orderBy id keys).take (offset + limit) =
      (orderBy id keys).take offset ++ pageBy id keys limit offset := List.take_add
  have apart : x ∈ (orderBy id keys).take offset → x ∉ pageBy id keys limit offset := by
    have single : ((orderBy id keys).take (offset + limit)).Nodup :=
      (sorted.1.nodup_iff.mpr distinct).sublist (List.take_sublist _ _)
    rw [cut] at single
    intro before on
    exact List.disjoint_of_nodup_append single before on
  have either : x ∈ keys ∧ below x keys < offset + limit ↔
      (x ∈ keys ∧ below x keys < offset) ∨ x ∈ pageBy id keys limit offset := by
    rw [← first, ← first, cut, List.mem_append]
  rw [first] at apart
  constructor
  · intro on
    obtain ⟨stored, early⟩ := either.mpr (.inr on)
    refine ⟨stored, ?_, early⟩
    by_contra before
    exact apart ⟨stored, by omega⟩ on
  · rintro ⟨stored, late, early⟩
    refine (either.mp ⟨stored, early⟩).resolve_left fun before => ?_
    omega

/-- A page that is not full ends the list. -/
theorem below_of_short (distinct : keys.Nodup) (short : (pageBy id keys limit offset).length < limit)
    (stored : x ∈ keys) : below x keys < offset + limit := by
  have sorted := orderBy_ordered id keys
  have few : (orderBy id keys).length < offset + limit := by
    rw [pageBy, List.length_take, List.length_drop] at short
    omega
  have whole : x ∈ (orderBy id keys).take (offset + limit) := by
    rw [List.take_of_length_le few.le]
    exact sorted.1.mem_iff.mpr stored
  exact ((sorted.mem_take (by rwa [List.map_id]) _ x).mp whole).2

/-- More keys never move a key to an earlier place. -/
theorem below_mono {more : List κ} (distinct : keys.Nodup) (grows : keys ⊆ more) :
    below x keys ≤ below x more :=
  (List.subperm_of_subset distinct grows).countP_le _

end Keys

/-- A list that grows while its pages are read one after the other hides none of its first keys: a
reader who stops at a page that is not full has seen each of them. -/
theorem exists_page_of_grows {κ : Type} [LinearOrder κ] {keys : Nat → List κ} {limit last : Nat}
    {x : κ} (distinct : ∀ page, (keys page).Nodup) (grows : ∀ page, keys page ⊆ keys (page + 1))
    (stored : x ∈ keys 0) (short : (pageBy id (keys last) limit (last * limit)).length < limit) :
    ∃ page ≤ last, x ∈ pageBy id (keys page) limit (page * limit) := by
  have stays (page : Nat) : x ∈ keys page := by
    induction page with
    | zero => exact stored
    | succ page ih => exact grows page ih
  -- The pages read so far either show the key or lie before its place.
  have ahead (count : Nat) : (∃ page < count, x ∈ pageBy id (keys page) limit (page * limit)) ∨
      count * limit ≤ below x (keys count) := by
    induction count with
    | zero => exact .inr (by omega)
    | succ count ih =>
        obtain ⟨page, read, shows⟩ | late := ih
        · exact .inl ⟨page, Nat.lt_succ_of_lt read, shows⟩
        · by_cases early : below x (keys count) < count * limit + limit
          · exact .inl ⟨count, Nat.lt_succ_self _, (mem_pageBy (distinct count)).mpr
              ⟨stays count, late, early⟩⟩
          · have moved : below x (keys count) ≤ below x (keys (count + 1)) :=
              below_mono (distinct count) (grows count)
            exact .inr (by rw [Nat.succ_mul]; omega)
  obtain ⟨page, read, shows⟩ | late := ahead last
  · exact ⟨page, read.le, shows⟩
  · exact ⟨last, le_rfl, (mem_pageBy (distinct last)).mpr
      ⟨stays last, late, below_of_short (distinct last) short (stays last)⟩⟩

end EventLedger.Library
