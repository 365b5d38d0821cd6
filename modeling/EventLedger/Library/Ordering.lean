import EventLedger.Library.Lists
import Mathlib.Data.List.Sort
import Mathlib.Data.Prod.Lex

namespace EventLedger.Library

/-- A query sorts its rows by a key. -/
def orderBy {α κ : Type} [LinearOrder κ] (key : α → κ) (items : List α) : List α :=
  items.insertionSort fun left right => key left ≤ key right

/-- The list holds each item once, in the order of the key. -/
def Ordered {α κ : Type} [LinearOrder κ] (key : α → κ) (items listed : List α) : Prop :=
  listed.Perm items ∧ listed.Pairwise fun left right => key left ≤ key right

/-- The list holds the first items in the order of the key. -/
def FirstBy {α κ : Type} [LinearOrder κ] (key : α → κ) (items : List α) (n : Nat)
    (listed : List α) : Prop :=
  ∃ ordered, Ordered key items ordered ∧ listed = ordered.take n

section Pages
variable {α : Type}

/-- The pages of one size are the leading part of the list. -/
theorem flatMap_pages (items : List α) (limit count : Nat) :
    ((List.range count).flatMap fun page => (items.drop (page * limit)).take limit) =
      items.take (count * limit) := by
  induction count with
  | zero => simp
  | succ count ih =>
      rw [List.range_succ, List.flatMap_append, ih, Nat.succ_mul, List.take_add]
      simp

end Pages

section Keys
variable {α κ : Type} [LinearOrder κ] {f g : α → κ} {items : List α}

theorem orderBy_ordered (f : α → κ) (items : List α) : Ordered f items (orderBy f items) := by
  refine ⟨List.perm_insertionSort _ _, ?_⟩
  have total : Std.Total fun left right : α => f left ≤ f right := ⟨fun _ _ => le_total _ _⟩
  have trans : IsTrans α fun left right => f left ≤ f right := ⟨fun _ _ _ => le_trans⟩
  exact List.pairwise_insertionSort _ _

/-- Distinct keys leave one order only. -/
theorem Ordered.unique (distinct : (items.map f).Nodup) {first second : List α}
    (one : Ordered f items first) (two : Ordered f items second) : first = second := by
  refine (one.1.trans two.1.symm).eq_of_pairwise (fun a b left right low high => ?_) one.2 two.2
  exact List.inj_on_of_nodup_map distinct (one.1.subset left) (two.1.subset right)
    (le_antisymm low high)

/-- Distinct keys list the same items in the same order. -/
theorem orderBy_perm (distinct : (items.map f).Nodup) {others : List α} (same : items.Perm others) :
    orderBy f items = orderBy f others := by
  obtain ⟨perm, sorted⟩ := orderBy_ordered f others
  exact Ordered.unique distinct (orderBy_ordered f items) ⟨perm.trans same.symm, sorted⟩

/-- The opposite order of distinct keys reverses the list. -/
theorem orderBy_toDual (distinct : (items.map f).Nodup) :
    orderBy (OrderDual.toDual ∘ f) items = (orderBy f items).reverse := by
  have distinctDual : (items.map (OrderDual.toDual ∘ f)).Nodup := by
    rw [← List.map_map]
    exact distinct.map OrderDual.toDual.injective
  obtain ⟨perm, sorted⟩ := orderBy_ordered f items
  refine Ordered.unique distinctDual (orderBy_ordered _ items) ⟨?_, ?_⟩
  · exact (List.reverse_perm _).trans perm
  · exact List.pairwise_reverse.mpr sorted

/-- Some of the items keep their order. -/
theorem orderBy_filter (distinct : (items.map f).Nodup) (p : α → Bool) :
    orderBy f (items.filter p) = (orderBy f items).filter p := by
  obtain ⟨perm, sorted⟩ := orderBy_ordered f items
  refine Ordered.unique (distinct.sublist (List.filter_sublist.map f)) (orderBy_ordered _ _) ⟨?_, ?_⟩
  · exact perm.filter p
  · exact sorted.sublist List.filter_sublist

/-- An item is among the first when few items have a smaller key. -/
theorem Ordered.mem_take {listed : List α} (ordered : Ordered f items listed)
    (distinct : (items.map f).Nodup) (n : Nat) (a : α) :
    a ∈ listed.take n ↔ a ∈ items ∧ items.countP (fun b => decide (f b < f a)) < n := by
  obtain ⟨perm, sorted⟩ := ordered
  rw [← perm.mem_iff, ← perm.countP_eq]
  have keys : (listed.map f).Nodup := (perm.map f).nodup_iff.mpr distinct
  clear perm distinct
  induction listed generalizing n with
  | nil => simp
  | cons head rest ih =>
      rw [List.pairwise_cons] at sorted
      rw [List.map_cons, List.nodup_cons] at keys
      cases n with
      | zero => simp
      | succ n =>
          have later : a ∈ rest.take n ↔
              a ∈ rest ∧ rest.countP (fun b => decide (f b < f a)) < n := ih n sorted.2 keys.2
          rw [List.take_succ_cons, List.mem_cons, List.mem_cons, List.countP_cons, later]
          by_cases same : a = head
          · subst same
            have none : rest.countP (fun b => decide (f b < f a)) = 0 :=
              List.countP_eq_zero.mpr fun b member => by simpa using sorted.1 b member
            simp [none]
          · by_cases member : a ∈ rest
            · have different : f head ≠ f a := fun equal =>
                keys.1 (equal ▸ List.mem_map_of_mem member)
              have below : f head < f a := lt_of_le_of_ne (sorted.1 a member) different
              simp [same, member, below]
            · simp [same, member]

/-- An item is among the first after items with smaller keys only, or all the first have smaller
keys. -/
theorem Ordered.take_cases {listed : List α} (ordered : Ordered f items listed)
    (distinct : (items.map f).Nodup) (n : Nat) {a : α} (member : a ∈ items) :
    (∃ front tail, listed.take n = front ++ a :: tail ∧ ∀ b ∈ front, f b < f a) ∨
      (listed.take n).length = n ∧ ∀ b ∈ listed.take n, f b < f a := by
  obtain ⟨perm, sorted⟩ := ordered
  have keys : (listed.map f).Nodup := (perm.map f).nodup_iff.mpr distinct
  have below {front tail : List α} (whole : listed = front ++ a :: tail) :
      ∀ b ∈ front, f b < f a := by
    intro b inFront
    rw [whole] at sorted keys
    rw [List.map_append, List.nodup_append] at keys
    have low := (List.pairwise_append.mp sorted).2.2 b inFront a List.mem_cons_self
    have different := keys.2.2 (f b) (List.mem_map_of_mem inFront) (f a)
      (List.mem_map_of_mem List.mem_cons_self)
    exact lt_of_le_of_ne low different
  obtain ⟨front, tail, whole⟩ := List.append_of_mem (perm.mem_iff.mpr member)
  by_cases few : front.length < n
  · obtain ⟨more, rfl⟩ := Nat.exists_eq_add_of_lt few
    refine .inl ⟨front, tail.take more, ?_, below whole⟩
    rw [whole, Nat.add_assoc, List.take_length_add_append]
    rfl
  · have first : listed.take n = front.take n := by
      rw [whole, List.take_append_of_le_length (not_lt.mp few)]
    rw [first]
    refine .inr ⟨List.length_take_of_le (not_lt.mp few), fun b taken => ?_⟩
    exact below whole b (List.mem_of_mem_take taken)

/-- Two items of a list are ordered alike by two keys that both sort it. -/
theorem pairwise_agree {listed : List α} (byF : listed.Pairwise fun a b => f a ≤ f b)
    (byG : listed.Pairwise fun a b => g a ≤ g b) {a b : α} (left : a ∈ listed) (right : b ∈ listed)
    (below : g a < g b) : f a ≤ f b := by
  have agree : ∀ x ∈ listed, ∀ y ∈ listed, g x < g y → f x ≤ f y := by
    have forward : listed.Pairwise fun x y => g x < g y → f x ≤ f y := by
      refine byF.imp ?_
      intro x y order _
      exact order
    have backward : listed.Pairwise fun x y => g y < g x → f y ≤ f x := by
      refine byG.imp ?_
      intro x y order lower
      exact absurd order (not_le.mpr lower)
    intro x inX y inY
    exact forward.forall_of_forall_of_flip (fun z _ lower => absurd lower (lt_irrefl _)) backward
      inX inY
  exact agree a left b right below

section Alike
variable (distinctF : (items.map f).Nodup) (distinctG : (items.map g).Nodup) {n : Nat}
include distinctF distinctG

/-- Equal first items are ordered alike with every other item. -/
theorem alike_of_take_eq (same : (orderBy f items).take n = (orderBy g items).take n) {a b : α}
    (member : a ∈ items) (few : items.countP (fun c => decide (g c < g a)) < n) (other : b ∈ items)
    (order : g a ≤ g b) : f a ≤ f b := by
  have byF := orderBy_ordered f items
  have byG := orderBy_ordered g items
  by_contra above
  rw [not_le] at above
  have inG : a ∈ (orderBy g items).take n := (byG.mem_take distinctG n a).mpr ⟨member, few⟩
  have inF := (byF.mem_take distinctF n a).mp (same ▸ inG)
  have fewer : items.countP (fun c => decide (f c < f b)) ≤
      items.countP (fun c => decide (f c < f a)) :=
    List.countP_mono_left fun c _ lower =>
      decide_eq_true ((of_decide_eq_true lower).trans above)
  have alsoF : b ∈ (orderBy f items).take n :=
    (byF.mem_take distinctF n b).mpr ⟨other, lt_of_le_of_lt fewer inF.2⟩
  have below : g a < g b := by
    refine lt_of_le_of_ne order fun equal => above.ne' ?_
    rw [List.inj_on_of_nodup_map distinctG member other equal]
  have sortedF := byF.2.sublist (List.take_sublist n _)
  have sortedG := byG.2.sublist (List.take_sublist n _)
  rw [← same] at sortedG
  exact absurd (pairwise_agree sortedF sortedG (same ▸ inG) alsoF below) (not_le.mpr above)

variable (alike : ∀ a ∈ items, items.countP (fun b => decide (g b < g a)) < n →
  ∀ b ∈ items, g a ≤ g b → f a ≤ f b)
include alike

/-- The first items by one key are among the first by a key that orders them alike. -/
theorem take_subset_of_alike : (orderBy g items).take n ⊆ (orderBy f items).take n := by
  intro a inG
  obtain ⟨member, few⟩ := ((orderBy_ordered g items).mem_take distinctG n a).mp inG
  refine ((orderBy_ordered f items).mem_take distinctF n a).mpr
    ⟨member, lt_of_le_of_lt ?_ few⟩
  refine List.countP_mono_left fun b other lower => decide_eq_true ?_
  by_contra above
  exact absurd (of_decide_eq_true lower)
    (not_lt.mpr (alike a member few b other (not_lt.mp above)))

theorem take_eq_of_alike : (orderBy f items).take n = (orderBy g items).take n := by
  have byF := orderBy_ordered f items
  have byG := orderBy_ordered g items
  have nodupG : ((orderBy g items).take n).Nodup :=
    (byG.1.nodup_iff.mpr (distinctG.of_map g)).sublist (List.take_sublist n _)
  have lengths : ((orderBy f items).take n).length = ((orderBy g items).take n).length := by
    rw [List.length_take, List.length_take, byF.1.length_eq, byG.1.length_eq]
  have perm := (List.subperm_of_subset nodupG
    (take_subset_of_alike distinctF distinctG alike)).perm_of_length_le lengths.le
  have sortedF := byF.2.sublist (List.take_sublist n _)
  have sortedG : ((orderBy g items).take n).Pairwise fun a b => f a ≤ f b := by
    refine (byG.2.sublist (List.take_sublist n _)).imp_of_mem fun {a b} inA inB order => ?_
    obtain ⟨member, few⟩ := (byG.mem_take distinctG n a).mp inA
    exact alike a member few b (byG.1.subset (List.mem_of_mem_take inB)) order
  refine perm.symm.eq_of_pairwise (fun a b inA inB low high => ?_) sortedF sortedG
  exact List.inj_on_of_nodup_map distinctF (byF.1.subset (List.mem_of_mem_take inA))
    (byG.1.subset (List.mem_of_mem_take inB)) (le_antisymm low high)

end Alike

/-- The first items are the same under two keys exactly when the keys order them alike. -/
theorem take_orderBy_eq_iff (distinctF : (items.map f).Nodup) (distinctG : (items.map g).Nodup)
    (n : Nat) :
    (orderBy f items).take n = (orderBy g items).take n ↔
      ∀ a ∈ items, items.countP (fun b => decide (g b < g a)) < n →
        ∀ b ∈ items, g a ≤ g b → f a ≤ f b := by
  constructor
  · intro same a member few b other order
    exact alike_of_take_eq distinctF distinctG same member few other order
  · exact take_eq_of_alike distinctF distinctG

/-- A sort by one key gives the first items by another key when the keys order them alike. -/
theorem firstBy_orderBy_iff (distinctF : (items.map f).Nodup) (distinctG : (items.map g).Nodup)
    (n : Nat) :
    FirstBy g items n ((orderBy f items).take n) ↔
      ∀ a ∈ items, items.countP (fun b => decide (g b < g a)) < n →
        ∀ b ∈ items, g a ≤ g b → f a ≤ f b := by
  rw [← take_orderBy_eq_iff distinctF distinctG]
  constructor
  · rintro ⟨ordered, sorted, same⟩
    rw [same, sorted.unique distinctG (orderBy_ordered g items)]
  · exact fun same => ⟨_, orderBy_ordered g items, same⟩

/-- A sort by one key is a sort by another key when the keys order all items alike. -/
theorem ordered_orderBy_iff (distinctF : (items.map f).Nodup) (distinctG : (items.map g).Nodup) :
    Ordered g items (orderBy f items) ↔ ∀ a ∈ items, ∀ b ∈ items, g a ≤ g b → f a ≤ f b := by
  have few (a : α) (member : a ∈ items) :
      items.countP (fun b => decide (g b < g a)) < items.length := by
    refine lt_of_le_of_ne List.countP_le_length fun all => ?_
    exact lt_irrefl _ (of_decide_eq_true (List.countP_eq_length.mp all a member))
  have whole (h : α → κ) : (orderBy h items).take items.length = orderBy h items :=
    List.take_of_length_le (orderBy_ordered h items).1.length_eq.le
  have same := take_orderBy_eq_iff distinctF distinctG items.length
  rw [whole, whole] at same
  constructor
  · intro sorted a member
    exact same.mp (sorted.unique distinctG (orderBy_ordered g items)) a member (few a member)
  · intro alike
    rw [same.mpr fun a member _ => alike a member]
    exact orderBy_ordered g items

end Keys

section Stored
variable {α β κ : Type} [LinearOrder κ] {g : α → κ} {key : β → κ} {stored : α → β} {items : List α}

/-- A sort of the stored rows stores the sort of the items. -/
theorem orderBy_map (key : β → κ) (stored : α → β) (items : List α) :
    orderBy key (items.map stored) = (orderBy (key ∘ stored) items).map stored :=
  (List.map_insertionSort _ _ stored items fun _ _ _ _ => Iff.rfl).symm

variable (distinctF : (items.map (key ∘ stored)).Nodup) (distinctG : (items.map g).Nodup)
include distinctF

omit [LinearOrder κ] in
/-- The stored rows determine the items that they come from. -/
theorem map_stored_inj {first second : List α} (firstDrawn : first ⊆ items)
    (secondDrawn : second ⊆ items) (same : first.map stored = second.map stored) :
    first = second := by
  refine eq_of_map_eq distinctF firstDrawn secondDrawn ?_
  rw [← List.map_map, ← List.map_map, same]

include distinctG

/-- The stored rows are sorted by the keys of their items when both keys order them alike. -/
theorem ordered_stored_iff :
    (∃ listed, Ordered g items listed ∧ orderBy key (items.map stored) = listed.map stored) ↔
      ∀ a ∈ items, ∀ b ∈ items, g a ≤ g b → key (stored a) ≤ key (stored b) := by
  have alike := ordered_orderBy_iff distinctF distinctG
  simp only [Function.comp_apply] at alike
  rw [orderBy_map, ← alike]
  constructor
  · rintro ⟨listed, sorted, same⟩
    rw [map_stored_inj distinctF (orderBy_ordered _ items).1.subset sorted.1.subset same]
    exact sorted
  · exact fun sorted => ⟨_, sorted, rfl⟩

/-- The first stored rows are the first by the keys of their items under the same condition. -/
theorem firstBy_stored_iff (n : Nat) :
    (∃ listed, FirstBy g items n listed ∧
        (orderBy key (items.map stored)).take n = listed.map stored) ↔
      ∀ a ∈ items, items.countP (fun b => decide (g b < g a)) < n →
        ∀ b ∈ items, g a ≤ g b → key (stored a) ≤ key (stored b) := by
  have alike := firstBy_orderBy_iff distinctF distinctG n
  simp only [Function.comp_apply] at alike
  rw [orderBy_map, ← List.map_take, ← alike]
  constructor
  · rintro ⟨listed, first, same⟩
    obtain ⟨ordered, sorted, taken⟩ := first
    have drawn : listed ⊆ items :=
      taken ▸ List.Subset.trans (List.take_subset n ordered) sorted.1.subset
    rw [map_stored_inj distinctF
      (List.Subset.trans (List.take_subset n _) (orderBy_ordered _ items).1.subset) drawn same]
    exact ⟨ordered, sorted, taken⟩
  · exact fun first => ⟨_, first, rfl⟩

end Stored
end EventLedger.Library
