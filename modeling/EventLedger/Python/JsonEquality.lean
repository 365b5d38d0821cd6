import EventLedger.Python.Json
import Mathlib.Data.List.Forall2
import Mathlib.Data.List.Perm.Subperm

namespace EventLedger.Python.Json

/-- JSON values are alike under a reading of their scalars when they have the same shape, with equal
scalars, and objects that hold alike values under the same keys. -/
inductive Alike {σ : Type} (scalar : Json → Option σ) : Json → Json → Prop where
  | null : Alike scalar .null .null
  | scalar {left right : Json} {value : σ} (first : scalar left = some value)
      (second : scalar right = some value) : Alike scalar left right
  | str (text : String) : Alike scalar (.str text) (.str text)
  | arr {lefts rights : List Json} (items : List.Forall₂ (Alike scalar) lefts rights) :
      Alike scalar (.arr lefts) (.arr rights)
  | obj {lefts rights : List (String × Json)}
      (keys : ∀ key, (lefts.lookup key).isSome ↔ (rights.lookup key).isSome)
      (values : ∀ key left right, lefts.lookup key = some left → rights.lookup key = some right →
        Alike scalar left right) : Alike scalar (.obj lefts) (.obj rights)

/-- A boolean of JSON is no number, and a number counts by its value. -/
def booleanOrNumber : Json → Option (Bool ⊕ PyFloat)
  | .bool value => some (.inl value)
  | .int value => some (.inr (.finite value))
  | .float value => some (.inr value)
  | _ => none

/-- Two JSON values are the same when they denote the same value. -/
def Same : Json → Json → Prop := Alike booleanOrNumber

/-- A reading of the scalars reads booleans and numbers only. -/
structure ReadsScalars {σ : Type} (scalar : Json → Option σ) : Prop where
  null : scalar .null = none
  str : ∀ text, scalar (.str text) = none
  arr : ∀ items, scalar (.arr items) = none
  obj : ∀ entries, scalar (.obj entries) = none

theorem number_readsScalars : ReadsScalars number :=
  ⟨rfl, fun _ => rfl, fun _ => rfl, fun _ => rfl⟩

theorem booleanOrNumber_readsScalars : ReadsScalars booleanOrNumber :=
  ⟨rfl, fun _ => rfl, fun _ => rfl, fun _ => rfl⟩

section Lookup
variable {entries : List (String × Json)} {key : String} {value : Json}

theorem mem_of_lookup (found : entries.lookup key = some value) : (key, value) ∈ entries := by
  obtain ⟨before, after, rfl, _⟩ := List.lookup_eq_some_iff.mp found
  simp

theorem isSome_lookup : (entries.lookup key).isSome ↔ key ∈ entries.map Prod.fst := by
  rw [List.lookup_isSome_iff, List.mem_map]
  exact exists_congr fun entry => and_congr_right fun _ => beq_iff_eq.trans eq_comm

theorem parsed_of_mem (parsed : ParsedEntries entries) (member : (key, value) ∈ entries) :
    value.Parsed := by
  induction entries with
  | nil => cases member
  | cons entry rest ih =>
      obtain ⟨_, first⟩ := entry
      rcases List.mem_cons.mp member with same | later
      · obtain ⟨_, rfl⟩ := Prod.mk.inj same
        exact parsed.1
      · exact ih parsed.2 later

/-- Distinct keys among as many keys are all of them. -/
theorem mem_iff_of_subset {lefts rights : List String} (distinct : lefts.Nodup)
    (within : lefts ⊆ rights) (length : rights.length ≤ lefts.length) :
    key ∈ lefts ↔ key ∈ rights :=
  ((List.subperm_of_subset distinct within).perm_of_length_le length).mem_iff

end Lookup

section Numbers
variable {left right : Json} {value : PyFloat}

/-- A number equals exactly the numbers of its value. -/
theorem pyEq_of_number (number : left.number = some value) :
    pyEq left right = true ↔ right.number = some value := by
  cases left with
  | bool | int | float =>
      cases number
      cases right with
      | bool | int | float =>
          simp only [pyEq, Json.number, beq_iff_eq, Option.some.injEq]
          exact eq_comm
      | null | str | arr | obj => simp [pyEq, Json.number]
  | null | str | arr | obj => cases number

end Numbers

section Alikes
variable {σ : Type} {scalar : Json → Option σ} {left right : Json} {value : σ}

/-- A scalar is alike to exactly the scalars of its value. -/
theorem alike_of_scalar (reads : ReadsScalars scalar) (own : scalar left = some value) :
    Alike scalar left right ↔ scalar right = some value := by
  refine ⟨fun alike => ?_, .scalar own⟩
  cases alike with
  | scalar first second => rwa [← Option.some.inj (first.symm.trans own)]
  | null => cases reads.null.symm.trans own
  | str text => cases (reads.str text).symm.trans own
  | arr => cases (reads.arr _).symm.trans own
  | obj => cases (reads.obj _).symm.trans own

theorem alike_null (reads : ReadsScalars scalar) : Alike scalar .null right ↔ right = .null := by
  constructor
  · intro alike
    cases alike with
    | null => rfl
    | scalar first => cases reads.null.symm.trans first
  · rintro rfl
    exact .null

theorem alike_str (reads : ReadsScalars scalar) {text : String} :
    Alike scalar (.str text) right ↔ right = .str text := by
  constructor
  · intro alike
    cases alike with
    | str => rfl
    | scalar first => cases (reads.str text).symm.trans first
  · rintro rfl
    exact .str text

theorem alike_arr (reads : ReadsScalars scalar) {items : List Json} :
    Alike scalar (.arr items) right ↔
      ∃ others, right = .arr others ∧ List.Forall₂ (Alike scalar) items others := by
  constructor
  · intro alike
    cases alike with
    | arr items => exact ⟨_, rfl, items⟩
    | scalar first => cases (reads.arr items).symm.trans first
  · rintro ⟨others, rfl, items⟩
    exact .arr items

theorem alike_obj (reads : ReadsScalars scalar) {entries : List (String × Json)} :
    Alike scalar (.obj entries) right ↔ ∃ others, right = .obj others ∧
      (∀ key, (entries.lookup key).isSome ↔ (others.lookup key).isSome) ∧
      ∀ key left right, entries.lookup key = some left → others.lookup key = some right →
        Alike scalar left right := by
  constructor
  · intro alike
    cases alike with
    | obj keys values => exact ⟨_, rfl, keys, values⟩
    | scalar first => cases (reads.obj entries).symm.trans first
  · rintro ⟨others, rfl, keys, values⟩
    exact .obj keys values

end Alikes

section Shapes
variable {right : Json}

theorem pyEq_null : pyEq .null right = true ↔ right = .null := by
  cases right with
  | null | bool | int | float | str | arr | obj => simp [pyEq, Json.number]

theorem pyEq_str {text : String} : pyEq (.str text) right = true ↔ right = .str text := by
  cases right with
  | str other =>
      simp only [pyEq, beq_iff_eq, Json.str.injEq]
      exact eq_comm
  | null | bool | int | float | arr | obj => simp [pyEq, Json.number]

theorem pyEq_arr {items : List Json} :
    pyEq (.arr items) right = true ↔ ∃ others, right = .arr others ∧ pyEqItems items others := by
  cases right with
  | arr others => simp [pyEq]
  | null | bool | int | float | str | obj => simp [pyEq, Json.number]

theorem pyEq_obj {entries : List (String × Json)} :
    pyEq (.obj entries) right = true ↔
      ∃ others, right = .obj others ∧ entries.length = others.length ∧ pyEqEntries entries others := by
  cases right with
  | obj others => simp [pyEq]
  | null | bool | int | float | str | arr => simp [pyEq, Json.number]

/-- As many entries that are all found are alike under every key. -/
theorem alikeEntries_iff {entries others : List (String × Json)}
    (distinct : (entries.map Prod.fst).Nodup) (othersDistinct : (others.map Prod.fst).Nodup) :
    (entries.length = others.length ∧ ∀ key value, (key, value) ∈ entries →
        ∃ other, others.lookup key = some other ∧ Alike number value other) ↔
      (∀ key, (entries.lookup key).isSome ↔ (others.lookup key).isSome) ∧
        ∀ key left right, entries.lookup key = some left → others.lookup key = some right →
          Alike number left right := by
  simp only [isSome_lookup]
  constructor
  · rintro ⟨length, found⟩
    have within : entries.map Prod.fst ⊆ others.map Prod.fst := by
      intro key member
      obtain ⟨entry, inside, rfl⟩ := List.mem_map.mp member
      obtain ⟨other, present, _⟩ := found entry.1 entry.2 inside
      exact isSome_lookup.mp (by rw [present]; rfl)
    refine ⟨fun key => mem_iff_of_subset distinct within (by simp [length]), ?_⟩
    intro key left right first second
    obtain ⟨other, present, same⟩ := found key left (mem_of_lookup first)
    rwa [← Option.some.inj (present.symm.trans second)]
  · rintro ⟨keys, values⟩
    have permuted := (List.perm_ext_iff_of_nodup distinct othersDistinct).mpr keys
    refine ⟨by simpa using permuted.length_eq, fun key value member => ?_⟩
    have present : (others.lookup key).isSome :=
      isSome_lookup.mpr ((keys key).mp (List.mem_map_of_mem member))
    obtain ⟨other, present⟩ := Option.isSome_iff_exists.mp present
    exact ⟨other, present, values key value other (lookup_of_mem distinct member) present⟩

end Shapes

mutual

/-- Python equality of parsed values takes booleans for numbers. -/
theorem pyEq_iff : (left right : Json) → left.Parsed → right.Parsed →
    (pyEq left right = true ↔ Alike number left right)
  | .null, _, _, _ => pyEq_null.trans (alike_null number_readsScalars).symm
  | .bool _, _, _, _ => (pyEq_of_number rfl).trans (alike_of_scalar number_readsScalars rfl).symm
  | .int _, _, _, _ => (pyEq_of_number rfl).trans (alike_of_scalar number_readsScalars rfl).symm
  | .float _, _, _, _ => (pyEq_of_number rfl).trans (alike_of_scalar number_readsScalars rfl).symm
  | .str _, _, _, _ => pyEq_str.trans (alike_str number_readsScalars).symm
  | .arr items, right, first, second => by
      rw [pyEq_arr, alike_arr number_readsScalars]
      refine exists_congr fun others => and_congr_right ?_
      rintro rfl
      exact pyEqItems_iff items others first second
  | .obj entries, right, ⟨distinct, first⟩, second => by
      rw [pyEq_obj, alike_obj number_readsScalars]
      refine exists_congr fun others => and_congr_right ?_
      rintro rfl
      rw [pyEqEntries_iff entries others first second.2]
      exact alikeEntries_iff distinct second.1

theorem pyEqItems_iff : (items others : List Json) → ParsedItems items → ParsedItems others →
    (pyEqItems items others = true ↔ List.Forall₂ (Alike number) items others)
  | [], [], _, _ => by simp [pyEqItems]
  | [], _ :: _, _, _ => by simp [pyEqItems]
  | _ :: _, [], _, _ => by simp [pyEqItems]
  | item :: rest, other :: others, ⟨first, firsts⟩, ⟨second, seconds⟩ => by
      rw [pyEqItems, Bool.and_eq_true, List.forall₂_cons, pyEq_iff item other first second,
        pyEqItems_iff rest others firsts seconds]

/-- Every entry needs the same value under its key. -/
theorem pyEqEntries_iff : (entries others : List (String × Json)) → ParsedEntries entries →
    ParsedEntries others →
    (pyEqEntries entries others = true ↔ ∀ key value, (key, value) ∈ entries →
      ∃ other, others.lookup key = some other ∧ Alike number value other)
  | [], _, _, _ => by simp [pyEqEntries]
  | (key, value) :: rest, others, ⟨first, firsts⟩, second => by
      have later := pyEqEntries_iff rest others firsts second
      have own : (match others.lookup key with
          | some right => pyEq value right
          | none => false) = true ↔ ∃ other, others.lookup key = some other ∧ Alike number value other := by
        cases found : others.lookup key with
        | none => simp
        | some other =>
            simp [pyEq_iff value other first (parsed_of_mem second (mem_of_lookup found))]
      rw [pyEqEntries, Bool.and_eq_true]
      refine (and_congr own later).trans ?_
      constructor
      · rintro ⟨head, tail⟩ name content member
        rcases List.mem_cons.mp member with same | member
        · obtain ⟨rfl, rfl⟩ := Prod.mk.inj same
          exact head
        · exact tail name content member
      · intro all
        exact ⟨all key value List.mem_cons_self,
          fun name content member => all name content (List.mem_cons_of_mem _ member)⟩

end

/-- A boolean counts as the number one or zero. -/
def asNumber : Bool ⊕ PyFloat → PyFloat
  | .inl value => .finite (if value then 1 else 0)
  | .inr value => value

theorem number_eq (value : Json) : value.number = (booleanOrNumber value).map asNumber := by
  cases value <;> rfl

/-- Equal scalars count as equal numbers. -/
theorem alike_of_booleanOrNumber {left right : Json} {value : Bool ⊕ PyFloat}
    (own : booleanOrNumber left = some value) (same : Same left right) :
    Alike number left right := by
  have other := (alike_of_scalar booleanOrNumber_readsScalars own).mp same
  exact .scalar (by rw [number_eq, own]; rfl) (by rw [number_eq, other]; rfl)

mutual

/-- The same values are alike when booleans count as numbers. -/
theorem Same.alike : (left right : Json) → Same left right → Alike number left right
  | .null, _, same =>
      (alike_null number_readsScalars).mpr ((alike_null booleanOrNumber_readsScalars).mp same)
  | .bool _, _, same => alike_of_booleanOrNumber rfl same
  | .int _, _, same => alike_of_booleanOrNumber rfl same
  | .float _, _, same => alike_of_booleanOrNumber rfl same
  | .str _, _, same =>
      (alike_str number_readsScalars).mpr ((alike_str booleanOrNumber_readsScalars).mp same)
  | .arr items, _, same => by
      obtain ⟨others, rfl, alike⟩ := (alike_arr booleanOrNumber_readsScalars).mp same
      exact .arr (Same.alikeItems items others alike)
  | .obj entries, _, same => by
      obtain ⟨others, rfl, keys, values⟩ := (alike_obj booleanOrNumber_readsScalars).mp same
      refine .obj keys fun key left right found other => ?_
      exact Same.alikeEntries entries key left (mem_of_lookup found) right
        (values key left right found other)

theorem Same.alikeItems : (items others : List Json) → List.Forall₂ Same items others →
    List.Forall₂ (Alike number) items others
  | [], _, .nil => .nil
  | item :: rest, other :: others, .cons first later =>
      .cons (Same.alike item other first) (Same.alikeItems rest others later)

theorem Same.alikeEntries : (entries : List (String × Json)) → (key : String) → (left : Json) →
    (key, left) ∈ entries → (right : Json) → Same left right → Alike number left right
  | [], _, _, member, _, _ => by cases member
  | (name, content) :: rest, key, left, member, right, same => by
      rcases List.mem_cons.mp member with own | later
      · obtain ⟨_, rfl⟩ := Prod.mk.inj own
        exact Same.alike left right same
      · exact Same.alikeEntries rest key left later right same

end

/-- Optional objects are alike when both are absent, or when both are alike objects. -/
def AlikeObject {σ : Type} (scalar : Json → Option σ) :
    Option (List (String × Json)) → Option (List (String × Json)) → Prop
  | none, none => True
  | some lefts, some rights => Alike scalar (.obj lefts) (.obj rights)
  | _, _ => False

/-- Optional objects are the same when both are absent, or when both are the same object. -/
def SameObject : Option (List (String × Json)) → Option (List (String × Json)) → Prop :=
  AlikeObject booleanOrNumber

/-- Optional objects are confused when they differ only where one has a boolean and the other the
number for which it counts. -/
def Confused (stored received : Option (List (String × Json))) : Prop :=
  AlikeObject number stored received ∧ ¬ SameObject stored received

section Objects
variable {stored received : Option (List (String × Json))}

theorem SameObject.alike (same : SameObject stored received) :
    AlikeObject number stored received := by
  cases stored <;> cases received
  case some.some lefts rights => exact Same.alike _ _ same
  all_goals exact same

theorem pyEqOption_iff (first : ∀ entries ∈ stored, (Json.obj entries).Parsed)
    (second : ∀ entries ∈ received, (Json.obj entries).Parsed) :
    pyEqOption stored received = true ↔ AlikeObject number stored received := by
  cases stored with
  | none => cases received <;> simp [pyEqOption, AlikeObject]
  | some lefts =>
      cases received with
      | none => simp [pyEqOption, AlikeObject]
      | some rights => exact pyEq_iff _ _ (first lefts rfl) (second rights rfl)

/-- Python equality tells objects apart by their values exactly when it does not confuse them. -/
theorem alikeObject_iff_same :
    (AlikeObject number stored received ↔ SameObject stored received) ↔
      ¬ Confused stored received := by
  rw [Confused, not_and_not_right]
  exact ⟨Iff.mp, fun tells => ⟨tells, SameObject.alike⟩⟩

/-- Only an empty object is alike to an empty object. -/
theorem alike_empty {σ : Type} {scalar : Json → Option σ} (reads : ReadsScalars scalar)
    {entries : List (String × Json)} :
    Alike scalar (.obj []) (.obj entries) ↔ entries = [] := by
  rw [alike_obj reads]
  constructor
  · rintro ⟨others, same, keys, _⟩
    obtain rfl := Json.obj.inj same
    cases entries with
    | nil => rfl
    | cons entry rest => simpa using keys entry.1
  · rintro rfl
    exact ⟨[], rfl, fun _ => Iff.rfl, fun _ _ _ found => by cases found⟩

/-- A stored empty object is compared as an absent one. -/
theorem pyEqOption_orNone_iff (first : ∀ entries ∈ stored, (Json.obj entries).Parsed)
    (second : ∀ entries ∈ received, (Json.obj entries).Parsed) :
    (pyEqOption (orNone stored) received = true ↔ SameObject stored received) ↔
      ¬ (stored = some [] ∧ (received = none ∨ received = some [])) ∧
        ¬ Confused stored received := by
  match stored, first with
  | none, first => simp [orNone, pyEqOption_iff first second, alikeObject_iff_same]
  | some (entry :: rest), first =>
      simp [orNone, pyEqOption_iff first second, alikeObject_iff_same]
  | some [], _ =>
      cases received with
      | none => simp [orNone, pyEqOption, SameObject, AlikeObject]
      | some entries =>
          simp [orNone, pyEqOption, SameObject, AlikeObject, Confused,
            alike_empty number_readsScalars, alike_empty booleanOrNumber_readsScalars]

end Objects
end EventLedger.Python.Json
