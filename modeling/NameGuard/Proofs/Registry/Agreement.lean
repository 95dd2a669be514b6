import NameGuard.Proofs.Holder.Construction
import NameGuard.Proofs.Registry.Lookup

/-!
# Registries that agree on some words

Reading asks the registry for one thing only: the kind that a word selects. So two registries that
look the words of a declaration up to the same kinds read it alike, and make the same holders of it,
whatever else they hold and in whichever order.

* `Registry.AgreeOn` — registries that look some words up to the same kinds;
* `Registry.AgreeOn.read`, `Registry.AgreeOn.parse` — they read these words alike, in either mode;
* `Holder.construct_of_agreeOn`, `Holder.ofName_of_agreeOn` — and make the same holders of them.
-/

set_option autoImplicit false

namespace NameGuard

namespace Registry

/-- Whether two registries look some words up to the same kinds. -/
def AgreeOn (a b : Registry) (words : List String) : Prop :=
  ∀ word ∈ words, a.lookup word = b.lookup word

variable {a b : Registry}

theorem advance_of_lookup {word : String} (h : a.lookup word = b.lookup word) (position : Nat)
    (current : Option Clause) :
    a.advance position current word = b.advance position current word := by
  have hselect : ∀ current, a.select position current word = b.select position current word := by
    intro current
    unfold select
    rw [h]
  unfold advance
  simp only [hselect]

theorem AgreeOn.scan {words : List String} (agree : AgreeOn a b words) :
    ∀ (position : Nat) (current : Option Clause),
      a.scan position current words = b.scan position current words := by
  induction words with
  | nil => intro position current; rfl
  | cons word rest ih =>
    intro position current
    have hword : a.lookup word = b.lookup word := agree word List.mem_cons_self
    have hrest : AgreeOn a b rest := fun later h => agree later (List.mem_cons_of_mem _ h)
    simp only [Registry.scan, advance_of_lookup hword, ih hrest]

/-- The words are looked up in lowercase, which makes no difference to what they select. -/
theorem AgreeOn.read {words : List String} (agree : AgreeOn a b words) :
    a.read words = b.read words := by
  refine AgreeOn.scan (fun word hword => ?_) 0 none
  obtain ⟨original, hmem, rfl⟩ := List.mem_map.mp hword
  rw [lookup_lower, lookup_lower, agree original hmem]

theorem AgreeOn.parseLenient {words : List String} (agree : AgreeOn a b words) :
    a.parseLenient words = b.parseLenient words := by
  unfold Registry.parseLenient
  rw [agree.read]

theorem AgreeOn.parse {words : List String} (agree : AgreeOn a b words) (strict : Bool) :
    a.parse strict words = b.parse strict words := by
  unfold Registry.parse
  rw [agree.parseLenient]

end Registry

namespace Holder

variable {a b : Registry}

theorem construct_of_agreeOn {words : List String} (agree : a.AgreeOn b words) (name : String)
    (dialect : Dialect) : construct name words a dialect = construct name words b dialect := by
  unfold construct
  rw [agree.parse]

/-- Only the words of a name that can be split are looked up. -/
theorem ofName_of_agreeOn {name : String} {dialect : Dialect}
    (agree : ∀ parts, Name.split dialect.separator name = .ok parts →
      a.AgreeOn b parts.declaration) : ofName name a dialect = ofName name b dialect := by
  cases hsplit : Name.split dialect.separator name with
  | error e => rw [ofName_of_split_error hsplit, ofName_of_split_error hsplit]
  | ok parts =>
    rw [ofName_eq_construct hsplit, ofName_eq_construct hsplit,
      construct_of_agreeOn (agree parts hsplit)]

end Holder

end NameGuard
