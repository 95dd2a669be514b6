import NameGuard.Proofs.Registry.Agreement
import NameGuard.Proofs.Registry.Registration

/-!
# The order of registration

A registration is checked against the kinds before it only. Still, whether all of some registrations
succeed does not depend on their order, for what one kind has against another the other has against
it: being apart is symmetric. The registries that two orders lead to have the same kinds at other
places, and no place shows in what is found in them.

* `Roster.LetsAllIn`, `Roster.AdmitsAll` — that all registrations succeed, one after the other, and
  the same with no order in it;
* `Roster.letsAllIn_iff` — the two are one;
* `Registry.Interchangeable` — registries that cannot be told apart by looking up and reading;
* `Registry.Interchangeable.of_perm` — registries of the same kinds at other places;
* `Roster.IsReached.registration_order` — the two together.
-/

set_option autoImplicit false

namespace NameGuard

theorem Kind.Apart.symm {a b : Kind} (h : a.Apart b) : b.Apart a where
  name := h.name.symm
  keywords keyword hb ha := h.keywords keyword ha hb

theorem Unambiguous.perm {kinds others : List Kind} (h : Unambiguous kinds)
    (perm : kinds.Perm others) : Unambiguous others where
  proper kind hkind := h.proper kind (perm.mem_iff.mpr hkind)
  apart := (perm.pairwise_iff Kind.Apart.symm).mp h.apart

/-! ## The same kinds at other places -/

namespace Registry

/-- Whether two registries find the same kinds by every word and by every name, have as many kinds
and the same keywords, and read the same from all words. -/
structure Interchangeable (a b : Registry) : Prop where
  lookup : ∀ word, a.lookup word = b.lookup word
  get? : ∀ name, a.get? name = b.get? name
  isKeyword : ∀ word, a.isKeyword word = b.isKeyword word
  size : a.size = b.size
  keywords : a.keywords = b.keywords
  parse : ∀ strict words, a.parse strict words = b.parse strict words
  parseLenient : ∀ words, a.parseLenient words = b.parseLenient words

/-- Keywords are listed in ascending order, each once, so their list is known from its members. -/
theorem keywords_eq_of_mem_iff {a b : Registry}
    (h : ∀ word, word ∈ a.keywords ↔ word ∈ b.keywords) : a.keywords = b.keywords := by
  have hsorted : ∀ registry : Registry,
      registry.keywords.Pairwise fun x y => decide (x ≤ y) = true := by
    intro registry
    refine List.pairwise_mergeSort (fun x y z => ?_) (fun x y => ?_) _
    · simpa using String.le_trans
    · simpa using String.le_total x y
  have hperm : a.keywords.Perm b.keywords :=
    (List.perm_ext_iff_of_nodup a.nodup_keywords b.nodup_keywords).mpr h
  refine List.Perm.eq_of_pairwise (fun x y _ _ hxy hyx => ?_) (hsorted a) (hsorted b) hperm
  exact String.le_antisymm (of_decide_eq_true hxy) (of_decide_eq_true hyx)

/-- What is found is known from the kinds as a set: a word or a name singles out its kind, and not
the place where the kind stands. -/
theorem Interchangeable.of_perm {kinds others : List Kind} (h : Unambiguous kinds)
    (perm : kinds.Perm others) : (ofKinds kinds).Interchangeable (ofKinds others) := by
  have hothers := h.perm perm
  have hlookup : ∀ word, (ofKinds kinds).lookup word = (ofKinds others).lookup word := by
    intro word
    refine Option.ext fun kind => ?_
    rw [lookup_ofKinds_iff h, lookup_ofKinds_iff hothers, perm.mem_iff]
  have hget : ∀ name, (ofKinds kinds).get? name = (ofKinds others).get? name := by
    intro name
    refine Option.ext fun kind => ?_
    rw [get?_ofKinds_iff h, get?_ofKinds_iff hothers, perm.mem_iff]
  have hkeywords : ∀ word, word ∈ (ofKinds kinds).keywords ↔ word ∈ (ofKinds others).keywords := by
    intro word
    rw [mem_keywords_ofKinds h, mem_keywords_ofKinds hothers]
    simp only [perm.mem_iff]
  have agree : ∀ words, (ofKinds kinds).AgreeOn (ofKinds others) words :=
    fun words word _ => hlookup word
  exact {
    lookup := hlookup
    get? := hget
    isKeyword := fun word => congrArg Option.isSome (hlookup word)
    size := perm.length_eq
    keywords := keywords_eq_of_mem_iff hkeywords
    parse := fun strict words => (agree words).parse strict
    parseLenient := fun words => (agree words).parseLenient }

end Registry

namespace Roster

/-! ## All registrations succeed -/

/-- Whether all of some registrations succeed, one after the other. -/
def LetsAllIn (roster : Roster) (registrations : List Registration) : Prop :=
  ∀ outcome ∈ (roster.enrollAll registrations).2, outcome = .ok ()

/-- The kinds of some registrations, without the drafts that have no rule. -/
def kindsOf (registrations : List Registration) : List Kind :=
  registrations.filterMap fun registration => registration.toKind.toOption

/-- Whether no draft lacks a rule, and nothing speaks against any of the kinds, be it a kind of the
roster or another of these kinds. -/
structure AdmitsAll (roster : Roster) (registrations : List Registration) : Prop where
  complete : ∀ registration ∈ registrations, ∃ kind, registration.toKind = .ok kind
  admits : ∀ kind ∈ kindsOf registrations, roster.Admits kind
  apart : (kindsOf registrations).Pairwise Kind.Apart

variable {roster : Roster} {registration : Registration} {rest : List Registration} {kind : Kind}

theorem kindsOf_cons (h : registration.toKind = .ok kind) :
    kindsOf (registration :: rest) = kind :: kindsOf rest := by
  simp [kindsOf, h, Except.toOption]

/-- There is no order in what is asked of some registrations. -/
theorem AdmitsAll.perm {registrations others : List Registration}
    (h : roster.AdmitsAll registrations) (perm : registrations.Perm others) :
    roster.AdmitsAll others := by
  have hkinds : (kindsOf registrations).Perm (kindsOf others) := perm.filterMap _
  exact {
    complete := fun registration hmem => h.complete registration (perm.mem_iff.mpr hmem)
    admits := fun kind hkind => h.admits kind (hkinds.mem_iff.mpr hkind)
    apart := (hkinds.pairwise_iff Kind.Apart.symm).mp h.apart }

theorem append_isNew_iff (roster : Roster) (first kind : Kind) :
    (roster.append first).IsNew kind ↔ roster.IsNew kind ∧ first.name ≠ kind.name := by
  unfold IsNew append
  rw [List.forall_mem_append, List.forall_mem_singleton]

theorem append_isFree_iff (roster : Roster) (first : Kind) (keyword : String) :
    (roster.append first).IsFree keyword ↔ roster.IsFree keyword ∧ keyword ∉ first.keywords := by
  unfold IsFree append
  rw [List.forall_mem_append, List.forall_mem_singleton, and_assoc]

/-- A roster with one more kind lets in what it did, less what is not apart from that kind. -/
theorem append_admits_iff (roster : Roster) (first kind : Kind) :
    (roster.append first).Admits kind ↔ roster.Admits kind ∧ first.Apart kind := by
  constructor
  · intro h
    obtain ⟨hnew, hname⟩ := (append_isNew_iff roster first kind).mp h.isNew
    have hfree : ∀ keyword ∈ kind.keywords, roster.IsFree keyword ∧ keyword ∉ first.keywords :=
      fun keyword hkeyword => (append_isFree_iff roster first keyword).mp (h.free keyword hkeyword)
    have hadmits : roster.Admits kind := {
      isNew := hnew
      hasKeyword := h.hasKeyword
      free := fun keyword hkeyword => (hfree keyword hkeyword).1
      arity_eq := h.arity_eq
      keywords_eq := h.keywords_eq }
    exact ⟨hadmits, hname, fun keyword htaken hkeyword => (hfree keyword hkeyword).2 htaken⟩
  · rintro ⟨h, apart⟩
    exact {
      isNew := (append_isNew_iff roster first kind).mpr ⟨h.isNew, apart.name⟩
      hasKeyword := h.hasKeyword
      free := fun keyword hkeyword => (append_isFree_iff roster first keyword).mpr
        ⟨h.free keyword hkeyword, fun htaken => apart.keywords keyword htaken hkeyword⟩
      arity_eq := h.arity_eq
      keywords_eq := h.keywords_eq }

theorem admitsAll_nil (roster : Roster) : roster.AdmitsAll [] where
  complete _ h := absurd h List.not_mem_nil
  admits _ h := absurd h List.not_mem_nil
  apart := .nil

/-- Nothing speaks against all of them exactly when nothing speaks against the first, and then
nothing against the rest. -/
theorem admitsAll_cons_iff (h : registration.toKind = .ok kind) :
    roster.AdmitsAll (registration :: rest) ↔
      roster.Admits kind ∧ (roster.append kind).AdmitsAll rest := by
  have hadmits : (∀ k ∈ kindsOf rest, (roster.append kind).Admits k) ↔
      (∀ k ∈ kindsOf rest, roster.Admits k) ∧ ∀ k ∈ kindsOf rest, kind.Apart k := by
    rw [← forall₂_and]
    exact forall₂_congr fun k _ => append_admits_iff roster kind k
  constructor
  · rintro ⟨hcomplete, hall, hapart⟩
    rw [kindsOf_cons h] at hall hapart
    obtain ⟨hfirst, hrest⟩ := List.forall_mem_cons.mp hall
    obtain ⟨hfirstApart, hrestApart⟩ := List.pairwise_cons.mp hapart
    exact ⟨hfirst, (List.forall_mem_cons.mp hcomplete).2, hadmits.mpr ⟨hrest, hfirstApart⟩,
      hrestApart⟩
  · rintro ⟨hfirst, hcomplete, hall, hapart⟩
    obtain ⟨hrest, hfirstApart⟩ := hadmits.mp hall
    refine ⟨List.forall_mem_cons.mpr ⟨⟨kind, h⟩, hcomplete⟩, ?_, ?_⟩
    · rw [kindsOf_cons h]
      exact List.forall_mem_cons.mpr ⟨hfirst, hrest⟩
    · rw [kindsOf_cons h]
      exact List.pairwise_cons.mpr ⟨hfirstApart, hapart⟩

theorem letsAllIn_cons_iff : roster.LetsAllIn (registration :: rest) ↔
    (roster.enroll registration).1 = .ok () ∧ (roster.enroll registration).2.LetsAllIn rest :=
  List.forall_mem_cons

/-- **Success has no order in it.** Registrations succeed one after the other exactly when nothing
speaks against any of their kinds, neither a kind of the roster nor another one of theirs. -/
theorem letsAllIn_iff (sound : roster.Sound) (registrations : List Registration) :
    roster.LetsAllIn registrations ↔ roster.AdmitsAll registrations := by
  induction registrations generalizing roster with
  | nil => exact ⟨fun _ => roster.admitsAll_nil, fun _ outcome h => absurd h List.not_mem_nil⟩
  | cons registration rest ih =>
    rw [letsAllIn_cons_iff]
    cases hkind : registration.toKind with
    | error fault =>
      rw [enroll_of_toKind_error hkind]
      constructor
      · rintro ⟨hok, -⟩
        cases hok
      · intro hall
        obtain ⟨kind, hok⟩ := hall.complete registration List.mem_cons_self
        rw [hkind] at hok
        cases hok
    | ok kind =>
      rw [enroll_of_toKind hkind, admitsAll_cons_iff hkind, register_eq_ok_iff sound]
      -- the rest comes to a roster with one more kind, so the induction is over all rosters
      refine and_congr_right fun hadmits => ?_
      rw [register_of_admits sound hadmits]
      exact ih (sound.append hadmits)

/-- Registrations that succeed add their kinds at the end, in their order. -/
theorem AdmitsAll.enrollAll_kinds {registrations : List Registration} (sound : roster.Sound)
    (h : roster.AdmitsAll registrations) :
    (roster.enrollAll registrations).1.kinds = roster.kinds ++ kindsOf registrations := by
  induction registrations generalizing roster with
  | nil => exact (List.append_nil _).symm
  | cons registration rest ih =>
    obtain ⟨kind, hkind⟩ := h.complete registration List.mem_cons_self
    obtain ⟨hadmits, hrest⟩ := (admitsAll_cons_iff hkind).mp h
    have henroll : (roster.enroll registration).2 = roster.append kind := by
      rw [enroll_of_toKind hkind, register_of_admits sound hadmits]
    show ((roster.enroll registration).2.enrollAll rest).1.kinds = _
    rw [henroll, ih (sound.append hadmits) hrest, kindsOf_cons hkind]
    exact List.append_assoc roster.kinds [kind] (kindsOf rest)

/-- **The order of registration does not matter.** In every state that a roster can reach, kinds and
drafts are all let in in one order exactly when they are all let in in any other. The registries
that the two orders lead to then find the same kinds by every word and by every name, have as many
kinds and the same keywords, and read the same constraints, drop the same ones and discard the same
words, whatever the words. -/
theorem IsReached.registration_order (reached : roster.IsReached)
    {registrations others : List Registration} (perm : registrations.Perm others) :
    (roster.LetsAllIn registrations ↔ roster.LetsAllIn others) ∧
    (roster.LetsAllIn registrations →
      (roster.enrollAll registrations).1.build.Interchangeable
        (roster.enrollAll others).1.build) := by
  have sound := reached.sound
  rw [letsAllIn_iff sound, letsAllIn_iff sound]
  refine ⟨⟨fun h => h.perm perm, fun h => h.perm perm.symm⟩, fun h => ?_⟩
  refine Registry.Interchangeable.of_perm (sound.enrollAll registrations).kinds ?_
  rw [h.enrollAll_kinds sound, (h.perm perm).enrollAll_kinds sound]
  exact (perm.filterMap _).append_left roster.kinds

/-- The standard kinds, registered the other way round, make a registry that cannot be told from the
standard one. -/
theorem registration_order_standard :
    empty.LetsAllIn [.ready .contains, .ready .between] ∧
      (empty.enrollAll [.ready .contains, .ready .between]).1.build.Interchangeable .standard := by
  have houtcomes : (empty.enrollAll [.ready .between, .ready .contains]).2 = [.ok (), .ok ()] := rfl
  have hall : empty.LetsAllIn [.ready .between, .ready .contains] := by
    intro outcome h
    simpa [houtcomes] using h
  obtain ⟨hiff, hsame⟩ := IsReached.registration_order ⟨[], rfl⟩
    (List.Perm.swap (.ready .between) (.ready .contains) [])
  exact ⟨hiff.mpr hall, hsame (hiff.mpr hall)⟩

end Roster

end NameGuard
