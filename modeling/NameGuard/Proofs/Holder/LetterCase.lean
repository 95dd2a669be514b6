import Mathlib
import NameGuard.Holder
import NameGuard.Proofs.Text.Lowering

/-!
# Letter case in names

A name is cut into words before the words are lowered. Lowering the name first would make no
difference unless the separator is a letter, since no other character is what a letter becomes. So
two names that are equal up to case make the same holder, or fail for the same reason, and only the
text of the name itself is told apart. Declarations are lowered word by word, which needs no
assumption.

* `splitOn_map_toLower`, `tokenize_of_sameWord` — lowering commutes with cutting into words;
* `HolderError.renamed` — the same error about another name;
* `Registry.read_of_sameWord` — declarations up to case;
* `Holder.ofName_of_sameWord` — names up to case.
-/

set_option autoImplicit false

namespace NameGuard

/-! ## Words -/

theorem sameWord_iff_map (a b : String) :
    sameWord a b = true ↔ a.toList.map Char.toLower = b.toList.map Char.toLower := by
  rw [sameWord_iff, ← String.toList_inj, toList_lower, toList_lower]

/-- A character that is no letter is what no other character becomes. -/
theorem toLower_eq_iff {separator : Char} (h : separator.isAlpha = false) (c : Char) :
    c.toLower = separator ↔ c = separator := by
  by_cases hupper : c.isUpper = true
  · have halpha : c.isAlpha = true := by simp [Char.isAlpha, hupper]
    constructor
    · rintro rfl
      rw [Char.isAlpha_toLower_eq_isAlpha, halpha] at h
      cases h
    · rintro rfl
      rw [halpha] at h
      cases h
  · rw [Char.toLower_eq_of_not_isUpper hupper]

theorem modifyHead_map_cons (x : Char) (words : List (List Char)) :
    (words.map (List.map Char.toLower)).modifyHead (x.toLower :: ·) =
      (words.modifyHead (x :: ·)).map (List.map Char.toLower) := by
  cases words <;> rfl

/-- Lowering commutes with cutting at a separator that is no letter. -/
theorem splitOn_map_toLower {separator : Char} (h : separator.isAlpha = false) (cs : List Char) :
    (cs.map Char.toLower).splitOn separator =
      (cs.splitOn separator).map (List.map Char.toLower) := by
  induction cs with
  | nil => rfl
  | cons c rest ih =>
    have hsame : (c.toLower == separator) = (c == separator) := by
      rw [Bool.eq_iff_iff, beq_iff_eq, beq_iff_eq]
      exact toLower_eq_iff h c
    rw [List.map_cons, List.splitOn_cons_eq_if_modifyHead, List.splitOn_cons_eq_if_modifyHead,
      hsame, ih]
    split
    · rfl
    · exact modifyHead_map_cons c _

/-- The words of an identifier are those of the identifier in lowercase. -/
theorem tokenize_toLower {separator : Char} (h : separator.isAlpha = false) (identifier : String) :
    tokenize separator identifier.toLower = tokenize separator identifier := by
  have hempty : ((fun word : List Char => !word.isEmpty) ∘ List.map Char.toLower) =
      fun word => !word.isEmpty := by
    funext word
    cases word <;> rfl
  have hlower : ((fun word => (String.ofList word).toLower) ∘ List.map Char.toLower) =
      fun word => (String.ofList word).toLower := by
    funext word
    have hword : String.ofList (word.map Char.toLower) = (String.ofList word).toLower := by
      rw [← String.toList_inj, toList_lower, String.toList_ofList, String.toList_ofList]
    rw [Function.comp_apply, hword, lower_lower]
  unfold tokenize
  rw [toList_lower, splitOn_map_toLower h, List.filter_map, List.map_map, hempty]
  exact congrArg (List.map · _) hlower

theorem tokenize_of_sameWord {separator : Char} (h : separator.isAlpha = false) {a b : String}
    (hab : sameWord a b = true) : tokenize separator a = tokenize separator b := by
  rw [← tokenize_toLower h a, (sameWord_iff a b).mp hab, tokenize_toLower h b]

/-- A separator that is a letter tells case apart. -/
example : tokenize 'x' "ax" = ["a"] ∧ tokenize 'x' "aX" = ["ax"] := by decide +kernel

/-! ## The same error about another name -/

def NameError.renamed (name : String) : NameError → NameError
  | .empty => .empty
  | .unknownHolderType _ found => .unknownHolderType name found
  | .missingLinker _ => .missingLinker name

def ParseError.renamed (name : String) : ParseError → ParseError
  | .name error => .name (error.renamed name)
  | .incomplete keyword position consumed required => .incomplete keyword position consumed required

def HolderError.renamed (name : String) : HolderError → HolderError
  | .nameFormat error => .nameFormat (error.renamed name)
  | .parse error => .parse (error.renamed name)
  | .violation v => .violation { v with holder := name }

theorem HolderError.renamed_ofParseError (name : String) (error : ParseError) :
    (ofParseError error).renamed name = ofParseError (error.renamed name) := by
  cases error <;> rfl

theorem Name.split_of_sameWord {separator : Char} (h : separator.isAlpha = false) {a b : String}
    (hab : sameWord a b = true) :
    split separator b = (split separator a).mapError (NameError.renamed b) := by
  unfold split
  rw [tokenize_of_sameWord h hab]
  unfold ofWords?
  split
  · rfl
  · split
    · rfl
    · split <;> rfl

/-! ## Declarations and holders -/

namespace Registry

/-- Declarations are read up to the case of their words. -/
theorem read_of_sameWord (registry : Registry) {xs ys : List String}
    (h : List.Forall₂ (fun x y => sameWord x y = true) xs ys) :
    registry.read xs = registry.read ys := by
  have hlower : xs.map String.toLower = ys.map String.toLower := by
    induction h with
    | nil => rfl
    | cons hword _ ih => rw [List.map_cons, List.map_cons, (sameWord_iff _ _).mp hword, ih]
  rw [read, read, hlower]

theorem parse_of_sameWord (registry : Registry) (strict : Bool) {xs ys : List String}
    (h : List.Forall₂ (fun x y => sameWord x y = true) xs ys) :
    registry.parse strict xs = registry.parse strict ys := by
  unfold parse parseLenient
  rw [registry.read_of_sameWord h]

/-- An error of a declaration does not speak of a name. -/
theorem renamed_of_parse_eq_error {registry : Registry} {strict : Bool} {words : List String}
    {error : ParseError} (h : registry.parse strict words = .error error) (name : String) :
    error.renamed name = error := by
  unfold parse at h
  dsimp only at h
  split at h
  · cases h
    rfl
  · cases h

end Registry

namespace Holder

def renamed (name : String) (holder : Holder) : Holder := { holder with name := name }

theorem ofName_eq_renamed (registry : Registry) {dialect : Dialect}
    (h : dialect.separator.isAlpha = false) {a b : String} (hab : sameWord a b = true) :
    ofName b registry dialect =
      ((ofName a registry dialect).map (renamed b)).mapError (HolderError.renamed b) := by
  unfold ofName
  rw [Name.split_of_sameWord h hab]
  cases Name.split dialect.separator a with
  | error error => rfl
  | ok parts =>
    dsimp only [Except.mapError]
    cases hparse : registry.parse dialect.strict parts.declaration with
    | ok declaration => rfl
    | error error =>
      show Except.error (HolderError.ofParseError error) =
        Except.error ((HolderError.ofParseError error).renamed b)
      rw [HolderError.renamed_ofParseError, Registry.renamed_of_parse_eq_error hparse]

/-- **The case of letters does not matter.** Where the separator is no letter, two names that are
equal up to case either both make a holder, of the same type and with the same constraints, or both
fail, with the same error but for the name that it speaks of. Over any registry and in either mode,
declarations whose words are equal up to case are the same, or fail with the same error. -/
theorem ofName_of_sameWord (registry : Registry) {dialect : Dialect}
    (h : dialect.separator.isAlpha = false) {a b : String} (hab : sameWord a b = true) :
    (∀ holder, ofName a registry dialect = .ok holder →
      ofName b registry dialect = .ok { holder with name := b }) ∧
    (∀ error, ofName a registry dialect = .error error →
      ofName b registry dialect = .error (error.renamed b)) ∧
    (∀ (strict : Bool) (xs ys : List String),
      List.Forall₂ (fun x y => sameWord x y = true) xs ys →
        registry.parse strict xs = registry.parse strict ys) := by
  have hrenamed := ofName_eq_renamed registry h hab
  refine ⟨?_, ?_, fun strict xs ys => registry.parse_of_sameWord strict⟩
  · intro holder hholder
    rw [hrenamed, hholder]
    rfl
  · intro error herror
    rw [hrenamed, herror]
    rfl

/-- A name in mixed case beside the same in capitals, with a clause that is incomplete. -/
theorem ofName_of_sameWord_capitals :
    sameWord "Scalar_With_Integers_between_5" "SCALAR_WITH_INTEGERS_BETWEEN_5" = true ∧
    (∀ holder, ofName "Scalar_With_Integers_between_5" = .ok holder →
      ofName "SCALAR_WITH_INTEGERS_BETWEEN_5" =
        .ok { holder with name := "SCALAR_WITH_INTEGERS_BETWEEN_5" }) ∧
    (∀ error, ofName "Scalar_With_Integers_between_5" = .error error →
      ofName "SCALAR_WITH_INTEGERS_BETWEEN_5" =
        .error (error.renamed "SCALAR_WITH_INTEGERS_BETWEEN_5")) ∧
    (∀ (strict : Bool) (xs ys : List String),
      List.Forall₂ (fun x y => sameWord x y = true) xs ys →
        Registry.standard.parse strict xs = Registry.standard.parse strict ys) := by
  have hseparator : ({} : Dialect).separator.isAlpha = false := by decide
  have hcase : sameWord "Scalar_With_Integers_between_5" "SCALAR_WITH_INTEGERS_BETWEEN_5" = true :=
    (sameWord_iff_map _ _).mpr (by decide)
  exact ⟨hcase, ofName_of_sameWord .standard hseparator hcase⟩

end Holder

end NameGuard
