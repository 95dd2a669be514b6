import NameGuard.Proofs.Registry.Agreement
import NameGuard.Proofs.Registry.Registration

/-!
# A registry with more kinds

Registration puts new kinds behind the old ones, and lets in only such as have keywords of their
own. So more kinds take nothing away: a word that selects none of the new kinds selects what it
selected before, and a declaration of such words says what it said before.

* `Roster.LeadsTo` — rosters that registrations lead to from a given one;
* `Roster.enrollAll_kinds` — a roster grows at its end;
* `Registry.lookup_ofKinds_append` — what the old kinds select, beside new ones;
* `Roster.IsReached.extension_conservative` — what declarations and names come to.
-/

set_option autoImplicit false

namespace NameGuard

namespace Roster

/-- Whether some registrations, failed ones among them, lead from one roster to another. -/
def LeadsTo (roster later : Roster) : Prop :=
  ∃ registrations, (roster.enrollAll registrations).1 = later

/-! ## Kinds are added at the end -/

theorem register_kinds (roster : Roster) (kind : Kind) :
    ∃ added, (roster.register kind).2.kinds = roster.kinds ++ added := by
  unfold register
  split
  · exact ⟨[], (List.append_nil _).symm⟩
  · exact ⟨[kind], rfl⟩

theorem enroll_kinds (roster : Roster) (registration : Registration) :
    ∃ added, (roster.enroll registration).2.kinds = roster.kinds ++ added := by
  unfold enroll
  split
  · exact ⟨[], (List.append_nil _).symm⟩
  · exact register_kinds roster _

theorem enrollAll_kinds (registrations : List Registration) :
    ∀ roster : Roster, ∃ added,
      (roster.enrollAll registrations).1.kinds = roster.kinds ++ added := by
  induction registrations with
  | nil => intro roster; exact ⟨[], (List.append_nil _).symm⟩
  | cons registration rest ih =>
    intro roster
    obtain ⟨first, hfirst⟩ := roster.enroll_kinds registration
    obtain ⟨later, hlater⟩ := ih (roster.enroll registration).2
    refine ⟨first ++ later, ?_⟩
    show ((roster.enroll registration).2.enrollAll rest).1.kinds = _
    rw [hlater, hfirst, List.append_assoc]

end Roster

/-! ## What the old kinds select -/

namespace Registry

/-- A word that selects none of the added kinds selects what it selected without them. -/
theorem lookup_ofKinds_append {kinds added : List Kind} (before : Unambiguous kinds)
    (after : Unambiguous (kinds ++ added)) {word : String}
    (unselected : ∀ kind ∈ added, kind.isSelectedBy word = false) :
    (ofKinds (kinds ++ added)).lookup word = (ofKinds kinds).lookup word := by
  have hnone : (added.find? fun kind => kind.isSelectedBy word) = none :=
    List.find?_eq_none.mpr fun kind hkind => by simp [unselected kind hkind]
  rw [lookup_ofKinds_eq_find? after, lookup_ofKinds_eq_find? before, List.find?_append, hnone,
    Option.or_none]

/-- Words that are keywords of none of the added kinds, once they are lowered, are looked up as they
were without these. -/
theorem agreeOn_ofKinds_append {kinds added : List Kind} (before : Unambiguous kinds)
    (after : Unambiguous (kinds ++ added)) {words : List String}
    (others : ∀ word ∈ words, ∀ kind ∈ added, word.toLower ∉ kind.keywords) :
    (ofKinds (kinds ++ added)).AgreeOn (ofKinds kinds) words := by
  intro word hword
  refine lookup_ofKinds_append before after fun kind hkind => ?_
  have hproper := after.proper kind (List.mem_append_right kinds hkind)
  rw [Bool.eq_false_iff, Ne, hproper.isSelectedBy_iff]
  exact others word hword kind hkind

end Registry

namespace Roster

/-- **More kinds take nothing away.** Let registrations lead from one roster to another. The kinds
of the second are those of the first, and then the added ones. A word that selects no added kind, in
letters of either case, is looked up alike in the registries of both. Words of which none is, in
lowercase, a keyword of an added kind are parsed alike in both modes, and make the same holders, or
fail with the same errors, under any name; so does a name on its own, if the words of its
declaration are such. -/
theorem IsReached.extension_conservative {roster later : Roster} (reached : roster.IsReached)
    (extended : roster.LeadsTo later) :
    ∃ added, later.kinds = roster.kinds ++ added ∧
      (∀ word, (∀ kind ∈ added, kind.isSelectedBy word = false) →
        later.build.lookup word = roster.build.lookup word) ∧
      (∀ words : List String,
        (∀ word ∈ words, ∀ kind ∈ added, word.toLower ∉ kind.keywords) →
        (∀ strict, later.build.parse strict words = roster.build.parse strict words) ∧
        later.build.parseLenient words = roster.build.parseLenient words ∧
        ∀ name dialect, Holder.construct name words later.build dialect =
          Holder.construct name words roster.build dialect) ∧
      ∀ name dialect,
        (∀ parts, Name.split dialect.separator name = .ok parts →
          ∀ word ∈ parts.declaration, ∀ kind ∈ added, word.toLower ∉ kind.keywords) →
        Holder.ofName name later.build dialect = Holder.ofName name roster.build dialect := by
  obtain ⟨registrations, rfl⟩ := extended
  obtain ⟨added, hkinds⟩ := enrollAll_kinds registrations roster
  have before : Unambiguous roster.kinds := reached.sound.kinds
  have after : Unambiguous (roster.kinds ++ added) :=
    hkinds ▸ (reached.sound.enrollAll registrations).kinds
  have hbuild : (roster.enrollAll registrations).1.build = .ofKinds (roster.kinds ++ added) :=
    congrArg Registry.ofKinds hkinds
  refine ⟨added, hkinds, fun word unselected => ?_, fun words others => ?_,
    fun name dialect others => ?_⟩
  · rw [hbuild]
    exact Registry.lookup_ofKinds_append before after unselected
  · have agree := Registry.agreeOn_ofKinds_append before after others
    rw [hbuild]
    exact ⟨agree.parse, agree.parseLenient, Holder.construct_of_agreeOn agree⟩
  · rw [hbuild]
    exact Holder.ofName_of_agreeOn fun parts hsplit =>
      Registry.agreeOn_ofKinds_append before after (others parts hsplit)

/-- A kind that is selected by `filled` changes nothing for words without it. -/
theorem extension_conservative_nonempty :
    ∃ roster later : Roster, (empty.enrollAll [.ready .between, .ready .contains]).1 = roster ∧
      (roster.enrollAll [.draft { Draft.named "nonempty" with rule := some Sample.nonempty }]).1 =
        later ∧
      later.kinds.length = 3 ∧
      ∀ strict, later.build.parse strict ["With", "integers", "between", "1", "full"] =
        roster.build.parse strict ["With", "integers", "between", "1", "full"] := by
  refine ⟨_, _, rfl, rfl, rfl, fun strict => ?_⟩
  obtain ⟨added, hkinds, -, hwords, -⟩ :=
    IsReached.extension_conservative ⟨[.ready .between, .ready .contains], rfl⟩
      ⟨[.draft { Draft.named "nonempty" with rule := some Sample.nonempty }], rfl⟩
  refine (hwords _ ?_).1 strict
  have hadded : [(Draft.named "nonempty").completed Sample.nonempty] = added :=
    List.append_cancel_left hkinds
  subst hadded
  decide +kernel

end Roster

end NameGuard
