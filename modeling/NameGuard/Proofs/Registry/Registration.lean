import NameGuard.Proofs.Registry.Lookup
import NameGuard.Registry.Enrollment
import NameGuard.Rule.Sample

/-!
# Registration is exact

A roster lets a kind in exactly when nothing speaks against it, and otherwise tells the first thing
that does. Its index of keywords stays in step with its kinds: the place of a keyword is the place
of the kind that has taken it. So a new kind changes nothing but what its own keywords select.

* `Roster.Admits`, `Roster.Objects` — when a kind is let in, and what speaks first against it;
* `Roster.Sound` — the invariant of rosters, kept by `Roster.Sound.register`;
* `Roster.register_eq_ok_iff`, `Roster.register_eq_error_iff` — the two outcomes;
* `Roster.IsReached.registration_exact` — both in every state that a roster can reach, and for
  drafts.
-/

set_option autoImplicit false

namespace NameGuard

namespace Roster

/-! ## What is let in, and what is not -/

/-- Whether no kind of the roster has the name of a kind. -/
def IsNew (roster : Roster) (kind : Kind) : Prop :=
  ∀ existing ∈ roster.kinds, existing.name ≠ kind.name

/-- Whether a word is fit for a keyword that no kind of the roster has. -/
def IsFree (roster : Roster) (keyword : String) : Prop :=
  IsPlainWord keyword ∧ ∀ existing ∈ roster.kinds, keyword ∉ existing.keywords

/-- Whether nothing speaks against a kind. -/
structure Admits (roster : Roster) (kind : Kind) : Prop where
  isNew : roster.IsNew kind
  hasKeyword : kind.keywords ≠ []
  free : ∀ keyword ∈ kind.keywords, roster.IsFree keyword
  arity_eq : kind.arity = (kind.instantiate kind.name).arity
  keywords_eq : kind.keywords = kind.rule.keywords

/-- What speaks first against a kind. The name comes first. Then come the keywords one after the
other, where those before the one at fault are free; a keyword that is not a plain word is at fault
for that, whoever has it. The declared arity comes next, and the declared keywords last. -/
inductive Objects (roster : Roster) (kind : Kind) : RegistryError → Prop
  | duplicateKind {existing : Kind} (member : existing ∈ roster.kinds)
      (same : existing.name = kind.name) : Objects roster kind (.duplicateKind kind.name)
  | noKeywords (isNew : roster.IsNew kind) (nil : kind.keywords = []) :
      Objects roster kind (.noKeywords kind.name)
  | invalidKeyword (isNew : roster.IsNew kind) {before after : List String} {keyword : String}
      (split : kind.keywords = before ++ keyword :: after)
      (free : ∀ earlier ∈ before, roster.IsFree earlier) (invalid : ¬ IsPlainWord keyword) :
      Objects roster kind (.invalidKeyword kind.name keyword)
  | duplicateKeyword (isNew : roster.IsNew kind) {before after : List String} {keyword : String}
      (split : kind.keywords = before ++ keyword :: after)
      (free : ∀ earlier ∈ before, roster.IsFree earlier) (plain : IsPlainWord keyword)
      {existing : Kind} (member : existing ∈ roster.kinds) (taken : keyword ∈ existing.keywords) :
      Objects roster kind (.duplicateKeyword keyword existing.name kind.name)
  | arityMismatch (isNew : roster.IsNew kind) (hasKeyword : kind.keywords ≠ [])
      (free : ∀ keyword ∈ kind.keywords, roster.IsFree keyword)
      (differs : kind.arity ≠ (kind.instantiate kind.name).arity) :
      Objects roster kind
        (.arityMismatch kind.name kind.arity (kind.instantiate kind.name).arity)
  | keywordMismatch (isNew : roster.IsNew kind) (hasKeyword : kind.keywords ≠ [])
      (free : ∀ keyword ∈ kind.keywords, roster.IsFree keyword)
      (arity_eq : kind.arity = (kind.instantiate kind.name).arity)
      (differs : kind.keywords ≠ kind.rule.keywords) :
      Objects roster kind (.keywordMismatch kind.name kind.keywords kind.rule.keywords)

/-! ## Rosters in step -/

/-- The kinds of a roster keep a registry unambiguous, and a keyword is taken at a place exactly
when the kind there has it. -/
structure Sound (roster : Roster) : Prop where
  kinds : Unambiguous roster.kinds
  taken : ∀ word place, roster.taken.find? word = some place ↔
    ∃ kind, roster.kinds[place]? = some kind ∧ word ∈ kind.keywords

theorem sound_empty : empty.Sound where
  kinds := ⟨fun _ h => absurd h List.not_mem_nil, .nil⟩
  taken := by
    intro word place
    simp [empty]

theorem takenBy?_eq_some_iff {roster : Roster} (sound : roster.Sound) (keyword : String)
    (existing : Kind) :
    roster.takenBy? keyword = some existing ↔
      existing ∈ roster.kinds ∧ keyword ∈ existing.keywords := by
  unfold takenBy?
  rw [Option.bind_eq_some_iff]
  constructor
  · rintro ⟨place, hfind, hkind⟩
    obtain ⟨kind, hk, hkeyword⟩ := (sound.taken keyword place).mp hfind
    obtain rfl : kind = existing := Option.some.inj (hk.symm.trans hkind)
    exact ⟨List.mem_of_getElem? hkind, hkeyword⟩
  · rintro ⟨hmem, hkeyword⟩
    obtain ⟨place, hkind⟩ := List.mem_iff_getElem?.mp hmem
    exact ⟨place, (sound.taken keyword place).mpr ⟨existing, hkind, hkeyword⟩, hkind⟩

theorem lookup_map_place (words : List String) (place : Nat) (word : String) :
    (words.map fun w => (w, place)).lookup word = if word ∈ words then some place else none := by
  induction words with
  | nil => rfl
  | cons w rest ih =>
    rw [List.map_cons, List.lookup_cons, ih]
    by_cases h : word = w
    · simp [h]
    · simp [h, beq_eq_false_iff_ne.mpr h]

/-- A kind at the end takes its keywords to its place, and leaves all other words where they are. -/
theorem find?_taken_append (roster : Roster) (kind : Kind) (word : String) :
    (roster.append kind).taken.find? word =
      if word ∈ kind.keywords then some roster.kinds.length else roster.taken.find? word := by
  have hlookup : ((kind.keywords.map fun keyword => (keyword, roster.kinds.length)).reverse).lookup
      word = if word ∈ kind.keywords then some roster.kinds.length else none := by
    rw [← List.map_reverse, lookup_map_place]
    simp only [List.mem_reverse]
  unfold append
  rw [Index.find?_insertAll, hlookup]
  split <;> simp

theorem Admits.isProper {roster : Roster} {kind : Kind} (h : roster.Admits kind) :
    kind.IsProper where
  hasKeyword := h.hasKeyword
  plain keyword hkeyword := (h.free keyword hkeyword).1
  arity_eq := h.arity_eq
  keywords_eq := h.keywords_eq

theorem Admits.apart {roster : Roster} {kind : Kind} (h : roster.Admits kind) {existing : Kind}
    (hexisting : existing ∈ roster.kinds) : existing.Apart kind where
  name := h.isNew existing hexisting
  keywords keyword htaken hkeyword := (h.free keyword hkeyword).2 existing hexisting htaken

/-- A kind that is let in keeps the roster in step. -/
theorem Sound.append {roster : Roster} (sound : roster.Sound) {kind : Kind}
    (h : roster.Admits kind) : (roster.append kind).Sound where
  kinds := sound.kinds.append h.isProper fun _ hexisting => h.apart hexisting
  taken := by
    intro word place
    rw [find?_taken_append]
    show _ ↔ ∃ k, (roster.kinds ++ [kind])[place]? = some k ∧ word ∈ k.keywords
    constructor
    · split
      · rename_i hword
        intro hplace
        cases hplace
        exact ⟨kind, by simp, hword⟩
      · intro hfind
        obtain ⟨k, hk, hword⟩ := (sound.taken word place).mp hfind
        obtain ⟨hlt, -⟩ := List.getElem?_eq_some_iff.mp hk
        exact ⟨k, by rw [List.getElem?_append_left hlt, hk], hword⟩
    · rintro ⟨k, hk, hword⟩
      rcases Nat.lt_or_ge place roster.kinds.length with hlt | hge
      · rw [List.getElem?_append_left hlt] at hk
        have hnot : word ∉ kind.keywords :=
          (h.apart (List.mem_of_getElem? hk)).keywords word hword
        rw [if_neg hnot]
        exact (sound.taken word place).mpr ⟨k, hk, hword⟩
      · -- beyond the earlier kinds there is one place, that of the new kind
        rw [List.getElem?_append_right hge, List.getElem?_singleton] at hk
        split at hk
        · cases hk
          rw [if_pos hword]
          congr 1
          omega
        · cases hk

/-! ## The first fault -/

theorem keywordFault?_eq_none_iff {roster : Roster} (sound : roster.Sound) (kind keyword : String) :
    roster.keywordFault? kind keyword = none ↔ roster.IsFree keyword := by
  unfold keywordFault? IsFree
  split
  · rename_i hvalid
    rw [Option.map_eq_none_iff, Option.eq_none_iff_forall_ne_some]
    have hplain := (isValidKeyword_iff keyword).mp hvalid
    constructor
    · intro hnone
      exact ⟨hplain, fun existing hexisting htaken =>
        hnone existing ((takenBy?_eq_some_iff sound keyword existing).mpr ⟨hexisting, htaken⟩)⟩
    · rintro ⟨-, hfree⟩ existing htaken
      obtain ⟨hexisting, hkeyword⟩ := (takenBy?_eq_some_iff sound keyword existing).mp htaken
      exact hfree existing hexisting hkeyword
  · rename_i hinvalid
    rw [isValidKeyword_iff] at hinvalid
    constructor
    · intro h
      cases h
    · intro h
      exact absurd h.1 hinvalid

/-- All keywords are free exactly when none of them is at fault. -/
theorem findSome?_keywordFault?_eq_none_iff {roster : Roster} (sound : roster.Sound)
    (kind : String) (keywords : List String) :
    keywords.findSome? (roster.keywordFault? kind) = none ↔
      ∀ keyword ∈ keywords, roster.IsFree keyword := by
  rw [List.findSome?_eq_none_iff]
  exact forall₂_congr fun keyword _ => keywordFault?_eq_none_iff sound kind keyword

theorem findSome?_keywordFault?_eq {roster : Roster} (sound : roster.Sound) {kind keyword : String}
    {keywords before after : List String} (split : keywords = before ++ keyword :: after)
    (free : ∀ earlier ∈ before, roster.IsFree earlier) {fault : RegistryError}
    (h : roster.keywordFault? kind keyword = some fault) :
    keywords.findSome? (roster.keywordFault? kind) = some fault :=
  List.findSome?_eq_some_iff.mpr ⟨before, keyword, after, split, h, fun earlier hearlier =>
    (keywordFault?_eq_none_iff sound kind earlier).mpr (free earlier hearlier)⟩

theorem any_name_iff (roster : Roster) (kind : Kind) :
    (roster.kinds.any fun existing => existing.name == kind.name) = true ↔
      ∃ existing ∈ roster.kinds, existing.name = kind.name := by
  simp

theorem fault?_of_old {roster : Roster} {kind existing : Kind} (member : existing ∈ roster.kinds)
    (same : existing.name = kind.name) : roster.fault? kind = some (.duplicateKind kind.name) := by
  unfold fault?
  rw [if_pos ((any_name_iff roster kind).mpr ⟨existing, member, same⟩)]

theorem any_name_of_isNew {roster : Roster} {kind : Kind} (isNew : roster.IsNew kind) :
    ¬ (roster.kinds.any fun existing => existing.name == kind.name) = true := by
  rw [any_name_iff]
  rintro ⟨existing, member, same⟩
  exact isNew existing member same

theorem fault?_of_nil {roster : Roster} {kind : Kind} (isNew : roster.IsNew kind)
    (nil : kind.keywords = []) : roster.fault? kind = some (.noKeywords kind.name) := by
  unfold fault?
  rw [if_neg (any_name_of_isNew isNew), if_pos (List.isEmpty_iff.mpr nil)]

theorem fault?_of_isNew {roster : Roster} {kind : Kind} (isNew : roster.IsNew kind)
    (hasKeyword : kind.keywords ≠ []) :
    roster.fault? kind =
      match kind.keywords.findSome? (roster.keywordFault? kind.name) with
      | some fault => some fault
      | none => declarationFault? kind := by
  have hempty : ¬ kind.keywords.isEmpty = true := by simpa using hasKeyword
  unfold fault?
  exact (if_neg (any_name_of_isNew isNew)).trans (if_neg hempty)

theorem fault?_of_free {roster : Roster} (sound : roster.Sound) {kind : Kind}
    (isNew : roster.IsNew kind) (hasKeyword : kind.keywords ≠ [])
    (free : ∀ keyword ∈ kind.keywords, roster.IsFree keyword) :
    roster.fault? kind = declarationFault? kind := by
  rw [fault?_of_isNew isNew hasKeyword, (findSome?_keywordFault?_eq_none_iff sound _ _).mpr free]

theorem fault?_of_keyword {roster : Roster} (sound : roster.Sound) {kind : Kind}
    (isNew : roster.IsNew kind) {before after : List String} {keyword : String}
    (split : kind.keywords = before ++ keyword :: after)
    (free : ∀ earlier ∈ before, roster.IsFree earlier) {fault : RegistryError}
    (h : roster.keywordFault? kind.name keyword = some fault) :
    roster.fault? kind = some fault := by
  rw [fault?_of_isNew isNew (by simp [split]), findSome?_keywordFault?_eq sound split free h]

/-- What a roster says against a kind does speak first against it, and where it says nothing the
kind is let in. -/
theorem fault?_cases {roster : Roster} (sound : roster.Sound) (kind : Kind) :
    (roster.fault? kind = none ∧ roster.Admits kind) ∨
      ∃ fault, roster.fault? kind = some fault ∧ roster.Objects kind fault := by
  by_cases isNew : roster.IsNew kind
  · by_cases hasKeyword : kind.keywords = []
    · exact .inr ⟨_, fault?_of_nil isNew hasKeyword, .noKeywords isNew hasKeyword⟩
    · cases hkeywords : kind.keywords.findSome? (roster.keywordFault? kind.name) with
      | some fault =>
        obtain ⟨before, keyword, after, split, hfault, hbefore⟩ :=
          List.findSome?_eq_some_iff.mp hkeywords
        have free : ∀ earlier ∈ before, roster.IsFree earlier := fun earlier h =>
          (keywordFault?_eq_none_iff sound kind.name earlier).mp (hbefore earlier h)
        refine .inr ⟨fault, fault?_of_keyword sound isNew split free hfault, ?_⟩
        unfold keywordFault? at hfault
        split at hfault
        · rename_i hvalid
          obtain ⟨existing, htaken, rfl⟩ := Option.map_eq_some_iff.mp hfault
          obtain ⟨hmem, hkeyword⟩ := (takenBy?_eq_some_iff sound keyword existing).mp htaken
          exact .duplicateKeyword isNew split free ((isValidKeyword_iff keyword).mp hvalid) hmem
            hkeyword
        · rename_i hinvalid
          cases hfault
          exact .invalidKeyword isNew split free fun h =>
            hinvalid ((isValidKeyword_iff keyword).mpr h)
      | none =>
        have free := (findSome?_keywordFault?_eq_none_iff sound _ _).mp hkeywords
        rw [fault?_of_free sound isNew hasKeyword free]
        unfold declarationFault?
        by_cases harity : (kind.instantiate kind.name).arity = kind.arity
        · by_cases hsame : kind.rule.keywords = kind.keywords
          · exact .inl ⟨by simp [harity, hsame], isNew, hasKeyword, free, harity.symm, hsame.symm⟩
          · exact .inr ⟨_, by simp [harity, hsame],
              .keywordMismatch isNew hasKeyword free harity.symm (Ne.symm hsame)⟩
        · exact .inr ⟨_, by simp [harity], .arityMismatch isNew hasKeyword free (Ne.symm harity)⟩
  · have hname : ∃ existing ∈ roster.kinds, existing.name = kind.name := by
      simpa [IsNew] using isNew
    obtain ⟨existing, hmem, hsame⟩ := hname
    exact .inr ⟨_, fault?_of_old hmem hsame, .duplicateKind hmem hsame⟩

theorem fault?_of_admits {roster : Roster} (sound : roster.Sound) {kind : Kind}
    (h : roster.Admits kind) : roster.fault? kind = none := by
  rw [fault?_of_free sound h.isNew h.hasKeyword h.free]
  simp [declarationFault?, ← h.arity_eq, ← h.keywords_eq]

/-- What speaks first against a kind is what the roster says. -/
theorem fault?_of_objects {roster : Roster} (sound : roster.Sound) {kind : Kind}
    {fault : RegistryError} (h : roster.Objects kind fault) : roster.fault? kind = some fault := by
  cases h with
  | duplicateKind member same => exact fault?_of_old member same
  | noKeywords isNew nil => exact fault?_of_nil isNew nil
  | invalidKeyword isNew split free invalid =>
    refine fault?_of_keyword sound isNew split free ?_
    exact if_neg fun hvalid => invalid ((isValidKeyword_iff _).mp hvalid)
  | duplicateKeyword isNew split free plain member taken =>
    refine fault?_of_keyword sound isNew split free ?_
    unfold keywordFault?
    rw [if_pos ((isValidKeyword_iff _).mpr plain),
      (takenBy?_eq_some_iff sound _ _).mpr ⟨member, taken⟩]
    rfl
  | arityMismatch isNew hasKeyword free differs =>
    rw [fault?_of_free sound isNew hasKeyword free]
    simp [declarationFault?, Ne.symm differs]
  | keywordMismatch isNew hasKeyword free arity_eq differs =>
    rw [fault?_of_free sound isNew hasKeyword free]
    simp [declarationFault?, ← arity_eq, Ne.symm differs]

/-! ## Registering -/

theorem register_of_admits {roster : Roster} (sound : roster.Sound) {kind : Kind}
    (h : roster.Admits kind) : roster.register kind = (.ok (), roster.append kind) := by
  unfold register
  rw [fault?_of_admits sound h]

theorem register_of_objects {roster : Roster} (sound : roster.Sound) {kind : Kind}
    {fault : RegistryError} (h : roster.Objects kind fault) :
    roster.register kind = (.error fault, roster) := by
  unfold register
  rw [fault?_of_objects sound h]

/-- A kind is let in, or something speaks first against it. -/
theorem admits_or_objects {roster : Roster} (sound : roster.Sound) (kind : Kind) :
    roster.Admits kind ∨ ∃ fault, roster.Objects kind fault := by
  rcases fault?_cases sound kind with ⟨-, h⟩ | ⟨fault, -, h⟩
  · exact .inl h
  · exact .inr ⟨fault, h⟩

theorem register_eq_ok_iff {roster : Roster} (sound : roster.Sound) (kind : Kind) :
    (roster.register kind).1 = .ok () ↔ roster.Admits kind := by
  constructor
  · intro hok
    rcases admits_or_objects sound kind with h | ⟨fault, h⟩
    · exact h
    · rw [register_of_objects sound h] at hok
      cases hok
  · intro h
    rw [register_of_admits sound h]

theorem register_eq_error_iff {roster : Roster} (sound : roster.Sound) (kind : Kind)
    (fault : RegistryError) :
    (roster.register kind).1 = .error fault ↔ roster.Objects kind fault := by
  constructor
  · intro herror
    rcases admits_or_objects sound kind with h | ⟨first, h⟩
    · rw [register_of_admits sound h] at herror
      cases herror
    · rw [register_of_objects sound h] at herror
      cases herror
      exact h
  · intro h
    rw [register_of_objects sound h]

theorem register_of_error {roster : Roster} {kind : Kind} {fault : RegistryError}
    (h : (roster.register kind).1 = .error fault) : (roster.register kind).2 = roster := by
  unfold register at h ⊢
  split
  · rfl
  · rename_i hnone
    rw [hnone] at h
    cases h

/-- A registration keeps a roster in step, whatever its outcome. -/
theorem Sound.register {roster : Roster} (sound : roster.Sound) (kind : Kind) :
    (roster.register kind).2.Sound := by
  rcases admits_or_objects sound kind with h | ⟨fault, h⟩
  · rw [register_of_admits sound h]
    exact sound.append h
  · rw [register_of_objects sound h]
    exact sound

/-- In the registry of a roster that lets a kind in, the words that select the kind do so, and all
other words select what they did. -/
theorem lookup_build_append {roster : Roster} (sound : roster.Sound) {kind : Kind}
    (h : roster.Admits kind) (word : String) :
    (roster.append kind).build.lookup word =
      if kind.isSelectedBy word then some kind else roster.build.lookup word := by
  have hafter : (roster.append kind).build.lookup word =
      (roster.kinds ++ [kind]).find? fun k => k.isSelectedBy word :=
    Registry.lookup_ofKinds_eq_find? (sound.append h).kinds word
  have hbefore : roster.build.lookup word = roster.kinds.find? fun k => k.isSelectedBy word :=
    Registry.lookup_ofKinds_eq_find? sound.kinds word
  rw [hafter, hbefore, List.find?_append, List.find?_singleton]
  split
  · rename_i hselected
    have hword := (h.isProper.isSelectedBy_iff word).mp hselected
    have hnone : (roster.kinds.find? fun k => k.isSelectedBy word) = none := by
      refine List.find?_eq_none.mpr fun existing hexisting hother => ?_
      have hproper := sound.kinds.proper existing hexisting
      have hshared := (hproper.isSelectedBy_iff word).mp hother
      exact (h.apart hexisting).keywords _ hshared hword
    rw [hnone, Option.none_or]
  · rw [Option.or_none]

/-! ## Drafts -/

theorem enroll_of_toKind {roster : Roster} {registration : Registration} {kind : Kind}
    (h : registration.toKind = .ok kind) : roster.enroll registration = roster.register kind := by
  unfold enroll
  rw [h]

theorem enroll_of_toKind_error {roster : Roster} {registration : Registration}
    {fault : RegistryError} (h : registration.toKind = .error fault) :
    roster.enroll registration = (.error fault, roster) := by
  unfold enroll
  rw [h]

theorem enroll_draft_of_none {roster : Roster} {draft : Draft} (h : draft.rule = none) :
    roster.enroll (.draft draft) = (.error (.missingRule draft.name), roster) :=
  enroll_of_toKind_error (by simp [Registration.toKind, Draft.toKind, h])

theorem enroll_draft_of_some {roster : Roster} {draft : Draft} {rule : Rule}
    (h : draft.rule = some rule) :
    roster.enroll (.draft draft) = roster.register (draft.completed rule) :=
  enroll_of_toKind (by simp [Registration.toKind, Draft.toKind, h])

/-- No registration of a kind fails for want of a rule. -/
theorem Objects.ne_missingRule {roster : Roster} {kind : Kind} {fault : RegistryError}
    (h : roster.Objects kind fault) (name : String) : fault ≠ .missingRule name := by
  cases h <;> simp

theorem Objects.arity_ne {roster : Roster} {kind : Kind} {name : String} {declared actual : Arity}
    (h : roster.Objects kind (.arityMismatch name declared actual)) :
    kind.arity ≠ (kind.instantiate kind.name).arity := by
  cases h with
  | arityMismatch isNew hasKeyword free differs => exact differs

theorem Objects.keywords_ne {roster : Roster} {kind : Kind} {name : String}
    {declared actual : List String}
    (h : roster.Objects kind (.keywordMismatch name declared actual)) :
    kind.keywords ≠ kind.rule.keywords := by
  cases h with
  | keywordMismatch isNew hasKeyword free arity_eq differs => exact differs

/-! ## Runs of registrations -/

theorem Sound.enroll {roster : Roster} (sound : roster.Sound) (registration : Registration) :
    (roster.enroll registration).2.Sound := by
  unfold Roster.enroll
  split
  · exact sound
  · exact sound.register _

/-- Whatever is registered, and whatever fails, a roster stays in step. -/
theorem Sound.enrollAll {roster : Roster} (sound : roster.Sound)
    (registrations : List Registration) : (roster.enrollAll registrations).1.Sound := by
  induction registrations generalizing roster with
  | nil => exact sound
  | cons registration rest ih => exact ih (sound.enroll registration)

/-- Whether a roster is one that some registrations lead to, failed ones among them. -/
def IsReached (roster : Roster) : Prop :=
  ∃ registrations, (empty.enrollAll registrations).1 = roster

theorem IsReached.sound {roster : Roster} (reached : roster.IsReached) : roster.Sound := by
  obtain ⟨registrations, rfl⟩ := reached
  exact sound_empty.enrollAll registrations

/-- **Registration is exact.** In every state that a roster can reach, a kind is let in exactly when
its name is new, it has keywords, all of them plain words that no registered kind has, and its
declaration agrees with a fresh constraint. It then comes last, its keywords are taken for its
place and select it, and nothing else changes. A kind that is not let in leaves the roster as it
was, and the error is what speaks first against it. A draft fails for want of a rule exactly when it
has none; otherwise it is registered as the kind that its rule completes, and what it leaves out
never speaks against it. -/
theorem IsReached.registration_exact {roster : Roster} (reached : roster.IsReached) (kind : Kind)
    (draft : Draft) :
    ((roster.register kind).1 = .ok () ↔ roster.Admits kind) ∧
    ((roster.register kind).1 = .ok () →
      (roster.register kind).2.kinds = roster.kinds ++ [kind] ∧
      (∀ word, (roster.register kind).2.taken.find? word =
        if word ∈ kind.keywords then some roster.kinds.length else roster.taken.find? word) ∧
      ∀ word, (roster.register kind).2.build.lookup word =
        if kind.isSelectedBy word then some kind else roster.build.lookup word) ∧
    (∀ fault, (roster.register kind).1 = .error fault ↔ roster.Objects kind fault) ∧
    (∀ fault, (roster.register kind).1 = .error fault → (roster.register kind).2 = roster) ∧
    ((∃ name, (roster.enroll (.draft draft)).1 = .error (.missingRule name)) ↔
      draft.rule = none) ∧
    (draft.rule = none →
      roster.enroll (.draft draft) = (.error (.missingRule draft.name), roster)) ∧
    (∀ rule, draft.rule = some rule →
      roster.enroll (.draft draft) = roster.register {
        name := draft.name
        keywords := draft.keywords.getD rule.keywords
        arity := draft.arity.getD (rule.arity rule.start)
        description := draft.description
        rule := rule }) ∧
    (draft.arity = none → ∀ name declared actual,
      (roster.enroll (.draft draft)).1 ≠ .error (.arityMismatch name declared actual)) ∧
    (draft.keywords = none → ∀ name declared actual,
      (roster.enroll (.draft draft)).1 ≠ .error (.keywordMismatch name declared actual)) := by
  have sound := reached.sound
  refine ⟨register_eq_ok_iff sound kind, ?_, register_eq_error_iff sound kind,
    fun fault => register_of_error, ?_, enroll_draft_of_none, fun rule => enroll_draft_of_some,
    ?_, ?_⟩
  · intro hok
    have h := (register_eq_ok_iff sound kind).mp hok
    rw [register_of_admits sound h]
    exact ⟨rfl, find?_taken_append roster kind, lookup_build_append sound h⟩
  · constructor
    · rintro ⟨name, hmissing⟩
      cases hrule : draft.rule with
      | none => rfl
      | some rule =>
        rw [enroll_draft_of_some hrule] at hmissing
        have hobjects := (register_eq_error_iff sound _ _).mp hmissing
        exact absurd rfl (hobjects.ne_missingRule name)
    · intro hrule
      exact ⟨draft.name, by rw [enroll_draft_of_none hrule]⟩
  · intro harity name declared actual herror
    cases hrule : draft.rule with
    | none =>
      rw [enroll_draft_of_none hrule] at herror
      cases herror
    | some rule =>
      rw [enroll_draft_of_some hrule] at herror
      refine ((register_eq_error_iff sound _ _).mp herror).arity_ne ?_
      simp [Draft.completed, harity, Constraint.arity, Kind.instantiate]
  · intro hkeywords name declared actual herror
    cases hrule : draft.rule with
    | none =>
      rw [enroll_draft_of_none hrule] at herror
      cases herror
    | some rule =>
      rw [enroll_draft_of_some hrule] at herror
      refine ((register_eq_error_iff sound _ _).mp herror).keywords_ne ?_
      simp [Draft.completed, hkeywords]

/-- A kind with a good keyword and one that is taken. -/
def sampleFresh : Kind where
  name := "fresh"
  keywords := ["fresh", "contains"]
  arity := .exact 0
  description := ""
  rule := Sample.nonempty

/-- Where the standard kinds are registered, the taken keyword speaks against the kind, and nothing
of it is kept. -/
theorem registration_exact_taken_keyword :
    ∃ roster : Roster, (empty.enrollAll [.ready .between, .ready .contains]).1 = roster ∧
      roster.register sampleFresh =
        (.error (.duplicateKeyword "contains" "contains" "fresh"), roster) := by
  refine ⟨_, rfl, ?_⟩
  have hnew : (empty.enrollAll [.ready .between, .ready .contains]).1.IsNew sampleFresh := by
    show ∀ existing ∈ Kind.standard, existing.name ≠ sampleFresh.name
    decide
  have hplain : ∀ keyword ∈ sampleFresh.keywords, IsPlainWord keyword := by
    have hvalid : ∀ keyword ∈ sampleFresh.keywords, isValidKeyword keyword = true := by
      decide +kernel
    exact fun keyword h => (isValidKeyword_iff keyword).mp (hvalid keyword h)
  have hsplit : sampleFresh.keywords = ["fresh"] ++ "contains" :: [] := rfl
  have hobjects : (empty.enrollAll [.ready .between, .ready .contains]).1.Objects sampleFresh
      (.duplicateKeyword "contains" Kind.contains.name sampleFresh.name) := by
    refine .duplicateKeyword hnew hsplit ?_ (hplain "contains" (by decide))
      (List.mem_cons_of_mem _ List.mem_cons_self) (by decide)
    intro earlier hearlier
    rw [List.mem_singleton.mp hearlier]
    refine ⟨hplain "fresh" (by decide), ?_⟩
    show ∀ existing ∈ Kind.standard, "fresh" ∉ existing.keywords
    decide
  obtain ⟨-, -, herror, hsame, -⟩ :=
    IsReached.registration_exact ⟨[.ready .between, .ready .contains], rfl⟩ sampleFresh
      (.named "fresh")
  have hfault := (herror _).mpr hobjects
  exact Prod.ext hfault (hsame _ hfault)

end Roster

end NameGuard
