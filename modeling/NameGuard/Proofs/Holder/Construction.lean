import NameGuard.Holder
import NameGuard.Proofs.Declaration.Strict

/-!
# How the construction of a holder fails

A holder is made in two ways: from a name and the words of a declaration, or from the name alone.
Either way the name is split first, and if it cannot be split that is the error, whatever the words
are. Only then are the words read, and only in strict mode can that fail, at the leftmost of the
clauses that are incomplete. So the two faults never compete, and a fault of the name is never told
as one of the declaration.

* `Holder.construct_eq_nameFormat_iff`, `Holder.construct_eq_parse_iff`,
  `Holder.construct_eq_ok_iff` — when each outcome arises;
* `Holder.construct_exact` — all outcomes, of both ways.
-/

set_option autoImplicit false

namespace NameGuard

namespace HolderError

/-- A fault of a name stays one, and is never told as a fault of a declaration. -/
theorem ofParseError_ne (error : ParseError) (e : NameError) :
    ofParseError error ≠ .parse (.name e) := by
  cases error <;> simp [ofParseError]

/-- Reading a declaration finds no fault in a name. -/
theorem ofParseError_of_parse {registry : Registry} {strict : Bool} {words : List String}
    {error : ParseError} (h : registry.parse strict words = .error error) :
    ofParseError error = .parse error := by
  obtain ⟨-, dropped, -, rfl⟩ := (registry.parse_eq_error_iff strict words error).mp h
  rfl

end HolderError

namespace Holder

variable {name : String} {words : List String} {registry : Registry} {dialect : Dialect}

theorem construct_of_split_error {e : NameError}
    (h : Name.split dialect.separator name = .error e) :
    construct name words registry dialect = .error (.nameFormat e) := by
  simp [construct, h]

theorem ofName_of_split_error {e : NameError}
    (h : Name.split dialect.separator name = .error e) :
    ofName name registry dialect = .error (.nameFormat e) := by
  simp [ofName, h]

theorem construct_of_parse_error {parts : Name}
    (hsplit : Name.split dialect.separator name = .ok parts) {error : ParseError}
    (hparse : registry.parse dialect.strict words = .error error) :
    construct name words registry dialect = .error (.parse error) := by
  simp [construct, hsplit, hparse, HolderError.ofParseError_of_parse hparse]

theorem construct_of_parse_ok {parts : Name}
    (hsplit : Name.split dialect.separator name = .ok parts) {declaration : Declaration}
    (hparse : registry.parse dialect.strict words = .ok declaration) :
    construct name words registry dialect =
      .ok ⟨name, parts.holder, declaration.constraints, none⟩ := by
  simp [construct, hsplit, hparse]

/-- What the construction of a holder comes to: the name cannot be split, or it can and the words
cannot be read, or there is a holder. -/
theorem construct_cases (name : String) (words : List String) (registry : Registry)
    (dialect : Dialect) :
    (∃ e, Name.split dialect.separator name = .error e ∧
      construct name words registry dialect = .error (.nameFormat e)) ∨
    (∃ parts error, Name.split dialect.separator name = .ok parts ∧
      registry.parse dialect.strict words = .error error ∧
      construct name words registry dialect = .error (.parse error)) ∨
    ∃ parts declaration, Name.split dialect.separator name = .ok parts ∧
      registry.parse dialect.strict words = .ok declaration ∧
      construct name words registry dialect =
        .ok ⟨name, parts.holder, declaration.constraints, none⟩ := by
  cases hsplit : Name.split dialect.separator name with
  | error e => exact .inl ⟨e, rfl, construct_of_split_error hsplit⟩
  | ok parts =>
    cases hparse : registry.parse dialect.strict words with
    | error error =>
      exact .inr (.inl ⟨parts, error, rfl, rfl, construct_of_parse_error hsplit hparse⟩)
    | ok declaration =>
      exact .inr (.inr ⟨parts, declaration, rfl, rfl, construct_of_parse_ok hsplit hparse⟩)

theorem construct_eq_nameFormat_iff (e : NameError) :
    construct name words registry dialect = .error (.nameFormat e) ↔
      Name.split dialect.separator name = .error e := by
  rcases construct_cases name words registry dialect with
    ⟨_, hsplit, h⟩ | ⟨_, _, hsplit, -, h⟩ | ⟨_, _, hsplit, -, h⟩
  · simp [hsplit, h]
  · simp [hsplit, h]
  · simp [hsplit, h]

theorem construct_eq_parse_iff (error : ParseError) :
    construct name words registry dialect = .error (.parse error) ↔
      (∃ parts, Name.split dialect.separator name = .ok parts) ∧
        registry.parse dialect.strict words = .error error := by
  rcases construct_cases name words registry dialect with
    ⟨_, hsplit, h⟩ | ⟨_, _, hsplit, hparse, h⟩ | ⟨_, _, hsplit, hparse, h⟩
  · simp [hsplit, h]
  · simp [hsplit, hparse, h]
  · simp [hsplit, hparse, h]

theorem construct_eq_ok_iff (holder : Holder) :
    construct name words registry dialect = .ok holder ↔
      ∃ parts declaration, Name.split dialect.separator name = .ok parts ∧
        registry.parse dialect.strict words = .ok declaration ∧
        holder = ⟨name, parts.holder, declaration.constraints, none⟩ := by
  rcases construct_cases name words registry dialect with
    ⟨_, hsplit, h⟩ | ⟨_, _, hsplit, hparse, h⟩ | ⟨_, _, hsplit, hparse, h⟩
  · simp [hsplit, h]
  · simp [hsplit, hparse, h]
  · simp [hsplit, hparse, h, eq_comm]

theorem ofName_eq_nameFormat_iff (e : NameError) :
    ofName name registry dialect = .error (.nameFormat e) ↔
      Name.split dialect.separator name = .error e := by
  cases hsplit : Name.split dialect.separator name with
  | error first => simp [ofName_of_split_error hsplit]
  | ok parts => rw [ofName_eq_construct hsplit, construct_eq_nameFormat_iff, hsplit]

/-- There is no value yet that a constraint could be violated by. -/
theorem construct_ne_violation (v : Violation) :
    construct name words registry dialect ≠ .error (.violation v) := by
  rcases construct_cases name words registry dialect with
    ⟨_, -, h⟩ | ⟨_, _, -, -, h⟩ | ⟨_, _, -, -, h⟩
  · simp [h]
  · simp [h]
  · simp [h]

/-- A fault of the name is not told as one of the declaration. -/
theorem construct_ne_parse_name (e : NameError) :
    construct name words registry dialect ≠ .error (.parse (.name e)) := by
  intro h
  obtain ⟨-, hparse⟩ := (construct_eq_parse_iff _).mp h
  obtain ⟨-, dropped, -, herror⟩ := (registry.parse_eq_error_iff _ _ _).mp hparse
  cases herror

theorem ofName_ne_parse_name (e : NameError) :
    ofName name registry dialect ≠ .error (.parse (.name e)) := by
  cases hsplit : Name.split dialect.separator name with
  | error first => simp [ofName_of_split_error hsplit]
  | ok parts =>
    rw [ofName_eq_construct hsplit]
    exact construct_ne_parse_name e

/-- **A holder fails at its name first, and then at the leftmost incomplete clause.** Whatever the
words, the registry and the mode, the error is one of the name exactly when the name cannot be
split, and is that error. If it can be split, the error is one of the declaration exactly in strict
mode where something is dropped, and speaks of the leftmost record; otherwise there is a holder with
the name as it was given, the type that the name begins with, the constraints of the lenient
reading, and nothing stored. There is no other outcome. A name alone makes the holder of its own
words, and what is left out is the standard registry, the separator `_` and lenient mode. No way to
a holder, and no error of a declaration that is told as one of a holder, hides a fault of a name in
a fault of a declaration. -/
theorem construct_exact (name : String) (words : List String) (registry : Registry)
    (dialect : Dialect) :
    (∀ e, construct name words registry dialect = .error (.nameFormat e) ↔
      Name.split dialect.separator name = .error e) ∧
    (∀ error, construct name words registry dialect = .error (.parse error) ↔
      (∃ parts, Name.split dialect.separator name = .ok parts) ∧ dialect.strict = true ∧
        ∃ dropped, registry.IsFirstDropped words dropped ∧
          error = .incomplete dropped.keyword dropped.position dropped.args.length
            dropped.required) ∧
    ((∃ dropped, registry.IsFirstDropped words dropped) ↔
      (registry.parseLenient words).dropped ≠ []) ∧
    (∀ holder, construct name words registry dialect = .ok holder ↔
      ∃ parts, Name.split dialect.separator name = .ok parts ∧
        (dialect.strict = true → (registry.parseLenient words).dropped = []) ∧
        holder = ⟨name, parts.holder, (registry.parseLenient words).constraints, none⟩) ∧
    (∀ v, construct name words registry dialect ≠ .error (.violation v)) ∧
    (∀ e, ofName name registry dialect = .error (.nameFormat e) ↔
      Name.split dialect.separator name = .error e) ∧
    (∀ parts, Name.split dialect.separator name = .ok parts →
      ofName name registry dialect = construct name parts.declaration registry dialect) ∧
    ofName name = ofName name .standard ⟨'_', false⟩ ∧
    construct name words = construct name words .standard ⟨'_', false⟩ ∧
    (∀ e, construct name words registry dialect ≠ .error (.parse (.name e)) ∧
      ofName name registry dialect ≠ .error (.parse (.name e))) ∧
    (∀ error e, HolderError.ofParseError error ≠ .parse (.name e)) := by
  refine ⟨construct_eq_nameFormat_iff, fun error => ?_, registry.exists_isFirstDropped_iff words,
    fun holder => ?_, construct_ne_violation, ofName_eq_nameFormat_iff,
    fun parts h => ofName_eq_construct h registry, rfl, rfl,
    fun e => ⟨construct_ne_parse_name e, ofName_ne_parse_name e⟩, HolderError.ofParseError_ne⟩
  · rw [construct_eq_parse_iff, registry.parse_eq_error_iff]
    rfl
  · rw [construct_eq_ok_iff]
    simp only [registry.parse_eq_ok_iff]
    constructor
    · rintro ⟨parts, _, hsplit, ⟨hcomplete, rfl⟩, hholder⟩
      exact ⟨parts, hsplit, hcomplete, hholder⟩
    · rintro ⟨parts, hsplit, hcomplete, hholder⟩
      exact ⟨parts, _, hsplit, ⟨hcomplete, rfl⟩, hholder⟩

end Holder

end NameGuard
