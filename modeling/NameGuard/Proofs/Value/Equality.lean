import Mathlib.Data.Option.NAry
import NameGuard.Proofs.Number.Comparison

/-!
# Equality of values

Numbers inside of values are compared as numbers, so equality of values is not the equality of what
is written: the two zeros are equal, and `nan` is not equal to itself. It comes down to a normal
form, in which every binary64 number stands as its place on the number line. A value has a normal
form unless `nan` occurs in it, and two values are equal if they have the same one. Equality is
therefore symmetric and transitive, and reflexive where there is no `nan`.

* `Meets` — two results that are both there, and the same;
* `Value.HasNaN` — whether `nan` occurs in a value, at any depth;
* `Value.normal?`, `Value.normal?_eq_none_iff` — the normal form, and which values have none;
* `Value.equal_iff_normal?` — equal values are those of one normal form;
* `Value.equal_symm`, `Value.equal_trans`, `Value.equal_self_iff` — the laws of equality.
-/

set_option autoImplicit false

namespace NameGuard

/-! ## Results that are there and agree -/

section

universe u v

variable {α : Type u} {β : Type v}

/-- Whether two results are both there, and the same. -/
def Meets (x y : Option α) : Prop := ∃ a, x = some a ∧ y = some a

@[simp] theorem meets_some (a b : α) : Meets (some a) (some b) ↔ a = b := by
  simp [Meets, eq_comm]

@[simp] theorem not_meets_none_left (y : Option α) : ¬Meets none y := by
  simp [Meets]

@[simp] theorem not_meets_none_right (x : Option α) : ¬Meets x none := by
  simp [Meets]

theorem Meets.symm {x y : Option α} (h : Meets x y) : Meets y x := by
  obtain ⟨a, hx, hy⟩ := h
  exact ⟨a, hy, hx⟩

theorem Meets.trans {x y z : Option α} (hxy : Meets x y) (hyz : Meets y z) : Meets x z := by
  obtain ⟨a, rfl, rfl⟩ := hxy
  obtain ⟨b, hb, rfl⟩ := hyz
  exact ⟨a, rfl, hb.symm⟩

theorem meets_self_iff (x : Option α) : Meets x x ↔ x ≠ none := by
  cases x <;> simp

theorem meets_map_iff {f : α → β} (h : Function.Injective f) (x y : Option α) :
    Meets (x.map f) (y.map f) ↔ Meets x y := by
  cases x <;> cases y <;> simp [h.eq_iff]

theorem meets_cons_iff (x y : Option α) (xs ys : Option (List α)) :
    Meets (Option.map₂ List.cons x xs) (Option.map₂ List.cons y ys) ↔
      Meets x y ∧ Meets xs ys := by
  cases x <;> cases y <;> cases xs <;> cases ys <;> simp

end

theorem Binary64.numEq_iff (a b : Binary64) : a.numEq b = true ↔ Meets a.rank? b.rank? := by
  cases ha : a.rank? with
  | none => simp [numEq, compare?, ha]
  | some x =>
    cases hb : b.rank? with
    | none => simp [numEq, compare?, ha, hb]
    | some y => rw [meets_some, numEq_of_rank? ha hb]

namespace Value

/-- Whether `nan` occurs in a value, itself or in a part of it. -/
inductive HasNaN : Value → Prop
  | float : HasNaN (.float .nan)
  | list {items : List Value} {item : Value} (member : item ∈ items) (h : HasNaN item) :
      HasNaN (.list items)
  | map {entries : List (String × Value)} {entry : String × Value} (member : entry ∈ entries)
      (h : HasNaN entry.2) : HasNaN (.map entries)

/-- A value without the difference between numbers that are equal: a binary64 number is held as its
place on the number line. -/
inductive Normal where
  | bool (b : Bool)
  | int (n : Int64)
  | float (rank : Int)
  | string (s : String)
  | list (items : List Normal)
  | map (entries : List (String × Normal))

mutual

/-- The normal form of a value. -/
def normal? : Value → Option Normal
  | .bool b => some (.bool b)
  | .int n => some (.int n)
  | .float x => x.rank?.map .float
  | .string s => some (.string s)
  | .list items => (normalItems? items).map .list
  | .map entries => (normalEntries? entries).map .map

def normalItems? : List Value → Option (List Normal)
  | [] => some []
  | a :: as => Option.map₂ List.cons (normal? a) (normalItems? as)

def normalEntries? : List (String × Value) → Option (List (String × Normal))
  | [] => some []
  | (k, a) :: as => Option.map₂ List.cons ((normal? a).map (Prod.mk k)) (normalEntries? as)

end

/-! ## Values without a normal form -/

mutual

theorem normal?_eq_none_iff : ∀ a : Value, normal? a = none ↔ a.HasNaN
  | .bool b => iff_of_false (by simp [normal?]) nofun
  | .int n => iff_of_false (by simp [normal?]) nofun
  | .string s => iff_of_false (by simp [normal?]) nofun
  | .float x => by
    rw [normal?, Option.map_eq_none_iff, Binary64.rank?_eq_none_iff]
    constructor
    · rintro rfl
      exact .float
    · intro h
      cases h
      rfl
  | .list items => by
    rw [normal?, Option.map_eq_none_iff, normalItems?_eq_none_iff items]
    constructor
    · rintro ⟨item, hitem, h⟩
      exact .list hitem h
    · rintro (_ | ⟨hitem, h⟩)
      exact ⟨_, hitem, h⟩
  | .map entries => by
    rw [normal?, Option.map_eq_none_iff, normalEntries?_eq_none_iff entries]
    constructor
    · rintro ⟨entry, hentry, h⟩
      exact .map hentry h
    · rintro (_ | _ | ⟨hentry, h⟩)
      exact ⟨_, hentry, h⟩

theorem normalItems?_eq_none_iff : ∀ items : List Value,
    normalItems? items = none ↔ ∃ item ∈ items, item.HasNaN
  | [] => by simp [normalItems?]
  | a :: as => by
    rw [normalItems?, Option.map₂_eq_none_iff, normal?_eq_none_iff a, normalItems?_eq_none_iff as]
    simp

theorem normalEntries?_eq_none_iff : ∀ entries : List (String × Value),
    normalEntries? entries = none ↔ ∃ entry ∈ entries, entry.2.HasNaN
  | [] => by simp [normalEntries?]
  | (k, a) :: as => by
    rw [normalEntries?, Option.map₂_eq_none_iff, Option.map_eq_none_iff, normal?_eq_none_iff a,
      normalEntries?_eq_none_iff as]
    simp

end

/-! ## Equality by normal forms -/

mutual

/-- Two values are equal if they have one normal form. -/
theorem equal_iff_normal? : ∀ a b : Value, equal a b = true ↔ Meets (normal? a) (normal? b)
  | .bool a, b => by
    cases b with
    | bool b => rw [equal, normal?, normal?, meets_some, Normal.bool.injEq, beq_iff_eq]
    | _ => simp [equal, normal?, Meets]
  | .int a, b => by
    cases b with
    | int b => rw [equal, normal?, normal?, meets_some, Normal.int.injEq, beq_iff_eq]
    | _ => simp [equal, normal?, Meets]
  | .string a, b => by
    cases b with
    | string b => rw [equal, normal?, normal?, meets_some, Normal.string.injEq, beq_iff_eq]
    | _ => simp [equal, normal?, Meets]
  | .float a, b => by
    cases b with
    | float b =>
      rw [equal, normal?, normal?, Binary64.numEq_iff,
        meets_map_iff fun _ _ => Normal.float.inj]
    | _ => simp [equal, normal?, Meets]
  | .list as, b => by
    cases b with
    | list bs =>
      rw [equal, normal?, normal?, equalItems_iff_normalItems? as bs,
        meets_map_iff fun _ _ => Normal.list.inj]
    | _ => simp [equal, normal?, Meets]
  | .map as, b => by
    cases b with
    | map bs =>
      rw [equal, normal?, normal?, equalEntries_iff_normalEntries? as bs,
        meets_map_iff fun _ _ => Normal.map.inj]
    | _ => simp [equal, normal?, Meets]

theorem equalItems_iff_normalItems? : ∀ as bs : List Value,
    equalItems as bs = true ↔ Meets (normalItems? as) (normalItems? bs)
  | [], [] => by simp [equalItems, normalItems?]
  | [], b :: bs => by simp [equalItems, normalItems?, Meets]
  | a :: as, [] => by simp [equalItems, normalItems?, Meets]
  | a :: as, b :: bs => by
    rw [equalItems, normalItems?, normalItems?, Bool.and_eq_true, equal_iff_normal? a b,
      equalItems_iff_normalItems? as bs, meets_cons_iff]

theorem equalEntries_iff_normalEntries? : ∀ as bs : List (String × Value),
    equalEntries as bs = true ↔ Meets (normalEntries? as) (normalEntries? bs)
  | [], [] => by simp [equalEntries, normalEntries?]
  | [], (l, b) :: bs => by simp [equalEntries, normalEntries?, Meets]
  | (k, a) :: as, [] => by simp [equalEntries, normalEntries?, Meets]
  | (k, a) :: as, (l, b) :: bs => by
    have hentry : Meets ((normal? a).map (Prod.mk k)) ((normal? b).map (Prod.mk l)) ↔
        k = l ∧ Meets (normal? a) (normal? b) := by
      cases normal? a <;> cases normal? b <;> simp
    rw [equalEntries, normalEntries?, normalEntries?, Bool.and_eq_true, Bool.and_eq_true,
      equal_iff_normal? a b, equalEntries_iff_normalEntries? as bs, beq_iff_eq, meets_cons_iff,
      hentry]

end

/-! ## The laws of equality -/

theorem equal_symm {a b : Value} (h : equal a b = true) : equal b a = true :=
  (equal_iff_normal? b a).mpr ((equal_iff_normal? a b).mp h).symm

theorem equal_comm (a b : Value) : equal a b = equal b a :=
  Bool.eq_iff_iff.mpr ⟨equal_symm, equal_symm⟩

theorem equal_trans {a b c : Value} (hab : equal a b = true) (hbc : equal b c = true) :
    equal a c = true :=
  (equal_iff_normal? a c).mpr
    (((equal_iff_normal? a b).mp hab).trans ((equal_iff_normal? b c).mp hbc))

/-- A value is equal to itself unless `nan` occurs in it. -/
theorem equal_self_iff (a : Value) : equal a a = true ↔ ¬a.HasNaN := by
  rw [equal_iff_normal?, meets_self_iff, Ne, normal?_eq_none_iff]

end Value

end NameGuard
