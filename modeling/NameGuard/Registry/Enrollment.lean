import NameGuard.Registry.Roster

/-!
# Enrollment

Kinds come to a roster as they are or as drafts. A draft has a name and may leave out the rest: its
keywords and its arity are then those of its rule. A draft without a rule cannot become a kind.

A registration that fails changes nothing, and those after it go on.

* `Draft.toKind` — the kind of a draft;
* `Roster.enroll` — one registration;
* `Roster.enrollAll` — some registrations in order, with the outcome of each;
* `Roster.standard` — the roster of the standard kinds.
-/

set_option autoImplicit false

namespace NameGuard

/-- A kind under preparation. -/
structure Draft where
  name : String
  keywords : Option (List String)
  arity : Option Arity
  description : String
  rule : Option Rule

def Draft.named (name : String) : Draft := ⟨name, none, none, "", none⟩

/-- The kind of a draft and a rule. What the draft leaves out is taken from the rule. -/
def Draft.completed (draft : Draft) (rule : Rule) : Kind where
  name := draft.name
  keywords := draft.keywords.getD rule.keywords
  arity := draft.arity.getD (rule.arity rule.start)
  description := draft.description
  rule := rule

def Draft.toKind (draft : Draft) : Except RegistryError Kind :=
  match draft.rule with
  | none => .error (.missingRule draft.name)
  | some rule => .ok (draft.completed rule)

/-- What comes to a roster. -/
inductive Registration where
  | ready (kind : Kind)
  | draft (draft : Draft)

def Registration.toKind : Registration → Except RegistryError Kind
  | .ready k => .ok k
  | .draft d => d.toKind

namespace Roster

/-- One registration, and the roster after it. -/
def enroll (roster : Roster) (registration : Registration) : Except RegistryError Unit × Roster :=
  match registration.toKind with
  | .error e => (.error e, roster)
  | .ok kind => roster.register kind

/-- The roster after some registrations, and the outcome of each. -/
def enrollAll (roster : Roster) :
    List Registration → Roster × List (Except RegistryError Unit)
  | [] => (roster, [])
  | registration :: rest =>
    let first := roster.enroll registration
    let later := first.2.enrollAll rest
    (later.1, first.1 :: later.2)

/-- The roster that the standard kinds are registered in. -/
def standard : Except RegistryError Roster :=
  Kind.standard.foldlM (fun roster kind =>
    match roster.register kind with
    | (.ok (), next) => .ok next
    | (.error e, _) => .error e) empty

end Roster

end NameGuard
