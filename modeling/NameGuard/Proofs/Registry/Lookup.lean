import NameGuard.Proofs.Text.Lowering
import NameGuard.Registry.Roster

/-!
# Looking up among kinds that are apart

Registration lets in kinds that keep a registry unambiguous: their names differ, no two of them
share a keyword, and keywords are plain words, so that lowering leaves them as they are. Over such
kinds both indices of a registry are exact: a word is found at one place, where the kind stands that
it selects.

* `IsPlainWord`, `Kind.IsProper`, `Kind.Apart`, `Unambiguous` — what registration guarantees;
* `Index.find?_insertAll_iff` — an index of entries that do not contradict each other;
* `Registry.lookup_lower` — looking up in letters of either case, whatever the kinds;
* `Registry.lookup_ofKinds_iff`, `Registry.get?_ofKinds_iff` — what a registry finds;
* `Registry.mem_keywords_ofKinds` — its keywords.
-/

set_option autoImplicit false

namespace NameGuard

/-! ## Plain words -/

/-- Whether a word is not empty, and all its characters are lowercase letters or digits. -/
def IsPlainWord (word : String) : Prop :=
  word ≠ "" ∧ ∀ c ∈ word.toList, ('a' ≤ c ∧ c ≤ 'z') ∨ ('0' ≤ c ∧ c ≤ '9')

theorem isValidKeyword_iff (word : String) : isValidKeyword word = true ↔ IsPlainWord word := by
  have hempty : word.toList.isEmpty = false ↔ word ≠ "" := by
    rw [← Bool.not_eq_true, List.isEmpty_iff, String.toList_eq_nil_iff]
  unfold isValidKeyword IsPlainWord
  simp only [Bool.and_eq_true, Bool.not_eq_true', hempty, List.all_eq_true, Bool.or_eq_true,
    isLower_iff, isDigit_iff]

theorem IsPlainWord.lower {word : String} (h : IsPlainWord word) : word.toLower = word := by
  refine lower_eq_self fun c hc hcapital => ?_
  rcases h.2 c hc with hletter | hdigit
  · exact absurd (Char.le_trans hletter.1 hcapital.2) (by decide)
  · exact absurd (Char.le_trans hcapital.1 hdigit.2) (by decide)

/-! ## Kinds that are apart -/

/-- Whether the declaration of a kind is complete and agrees with its rule. -/
structure Kind.IsProper (kind : Kind) : Prop where
  hasKeyword : kind.keywords ≠ []
  plain : ∀ keyword ∈ kind.keywords, IsPlainWord keyword
  arity_eq : kind.arity = (kind.instantiate kind.name).arity
  keywords_eq : kind.keywords = kind.rule.keywords

/-- Whether two kinds have different names and no keyword in common. -/
structure Kind.Apart (a b : Kind) : Prop where
  name : a.name ≠ b.name
  keywords : ∀ keyword ∈ a.keywords, keyword ∉ b.keywords

/-- What registration guarantees of the kinds that it lets in. -/
structure Unambiguous (kinds : List Kind) : Prop where
  proper : ∀ kind ∈ kinds, kind.IsProper
  apart : kinds.Pairwise Kind.Apart

/-- A word selects a proper kind exactly when it is one of the keywords, once it is lowered. -/
theorem Kind.IsProper.isSelectedBy_iff {kind : Kind} (h : kind.IsProper) (word : String) :
    kind.isSelectedBy word = true ↔ word.toLower ∈ kind.keywords := by
  rw [Kind.isSelectedBy_iff]
  constructor
  · rintro ⟨keyword, hkeyword, hsame⟩
    rw [← hsame, (h.plain keyword hkeyword).lower]
    exact hkeyword
  · intro hmem
    exact ⟨word.toLower, hmem, lower_lower word⟩

namespace Unambiguous

variable {kinds : List Kind}

theorem append (h : Unambiguous kinds) {kind : Kind} (proper : kind.IsProper)
    (apart : ∀ existing ∈ kinds, existing.Apart kind) : Unambiguous (kinds ++ [kind]) where
  proper := by
    intro k hk
    rcases List.mem_append.mp hk with hk | hk
    · exact h.proper k hk
    · rw [List.mem_singleton.mp hk]
      exact proper
  apart := by
    refine List.pairwise_append.mpr ⟨h.apart, List.pairwise_singleton _ _, ?_⟩
    intro existing hexisting k hk
    rw [List.mem_singleton.mp hk]
    exact apart existing hexisting

/-- Kinds at two places are apart, whichever comes first, so what they have in common is at one
place. -/
theorem place_unique (h : Unambiguous kinds) {i j : Nat} {a b : Kind} (hi : kinds[i]? = some a)
    (hj : kinds[j]? = some b) (hcommon : ¬ a.Apart b ∧ ¬ b.Apart a) : i = j := by
  obtain ⟨hilt, rfl⟩ := List.getElem?_eq_some_iff.mp hi
  obtain ⟨hjlt, rfl⟩ := List.getElem?_eq_some_iff.mp hj
  have hpairs := List.pairwise_iff_getElem.mp h.apart
  rcases Nat.lt_trichotomy i j with hlt | heq | hgt
  · exact absurd (hpairs i j hilt hjlt hlt) hcommon.1
  · exact heq
  · exact absurd (hpairs j i hjlt hilt hgt) hcommon.2

theorem place_unique_of_keyword (h : Unambiguous kinds) {i j : Nat} {a b : Kind}
    (hi : kinds[i]? = some a) (hj : kinds[j]? = some b) {keyword : String}
    (ha : keyword ∈ a.keywords) (hb : keyword ∈ b.keywords) : i = j :=
  h.place_unique hi hj
    ⟨fun apart => apart.keywords keyword ha hb, fun apart => apart.keywords keyword hb ha⟩

theorem place_unique_of_name (h : Unambiguous kinds) {i j : Nat} {a b : Kind}
    (hi : kinds[i]? = some a) (hj : kinds[j]? = some b) (hname : a.name = b.name) : i = j :=
  h.place_unique hi hj ⟨fun apart => apart.name hname, fun apart => apart.name hname.symm⟩

/-- At most one kind has a property that no two kinds share that are apart. -/
theorem length_filter_le_one (h : Unambiguous kinds) {p : Kind → Bool}
    (hp : ∀ a ∈ kinds, ∀ b ∈ kinds, a.Apart b → p a = true → p b = false) :
    (kinds.filter p).length ≤ 1 := by
  have hapart := h.apart.filter p
  match hfilter : kinds.filter p with
  | [] => exact Nat.zero_le 1
  | [_] => exact Nat.le_refl 1
  | a :: b :: rest =>
    have ha : a ∈ kinds.filter p := by simp [hfilter]
    have hb : b ∈ kinds.filter p := by simp [hfilter]
    obtain ⟨ha, hpa⟩ := List.mem_filter.mp ha
    obtain ⟨hb, hpb⟩ := List.mem_filter.mp hb
    rw [hfilter] at hapart
    have hab : a.Apart b := (List.pairwise_cons.mp hapart).1 b List.mem_cons_self
    rw [hp a ha b hb hab hpa] at hpb
    cases hpb

end Unambiguous

/-- The standard kinds keep a registry unambiguous. -/
theorem Kind.unambiguous_standard : Unambiguous Kind.standard where
  proper := by
    have hvalid : ∀ kind ∈ Kind.standard, ∀ keyword ∈ kind.keywords,
        isValidKeyword keyword = true := by
      decide +kernel
    intro kind hkind
    have hplain := fun keyword h => (isValidKeyword_iff keyword).mp (hvalid kind hkind keyword h)
    obtain rfl | rfl : kind = .between ∨ kind = .contains := by
      simpa [Kind.standard] using hkind
    · exact ⟨by decide, hplain, rfl, rfl⟩
    · exact ⟨by decide, hplain, rfl, rfl⟩
  apart := by
    refine List.pairwise_pair.mpr ⟨by decide, ?_⟩
    decide

/-! ## Indices of entries -/

theorem Index.mem_of_find? {entries : List (String × Nat)} {word : String} {place : Nat}
    (h : (Index.empty.insertAll entries).find? word = some place) : (word, place) ∈ entries := by
  rw [find?_insertAll, find?_empty, Option.or_none] at h
  obtain ⟨before, after, hsplit, -⟩ := List.lookup_eq_some_iff.mp h
  rw [← List.mem_reverse, hsplit]
  exact List.mem_append_right _ List.mem_cons_self

/-- A word is found in an index where the entries put it, if they all put it at one place. -/
theorem Index.find?_insertAll_iff {entries : List (String × Nat)}
    (agree : ∀ word i j, (word, i) ∈ entries → (word, j) ∈ entries → i = j) (word : String)
    (place : Nat) :
    (Index.empty.insertAll entries).find? word = some place ↔ (word, place) ∈ entries := by
  constructor
  · exact mem_of_find?
  · intro hplace
    have hsome : (entries.reverse.lookup word).isSome = true :=
      List.lookup_isSome_iff.mpr ⟨(word, place), List.mem_reverse.mpr hplace, beq_self_eq_true _⟩
    obtain ⟨i, hi⟩ := Option.isSome_iff_exists.mp hsome
    have hfind : (Index.empty.insertAll entries).find? word = some i := by
      rw [find?_insertAll, hi, Option.some_or]
    rw [hfind, agree word i place (mem_of_find? hfind) hplace]

namespace Kind

variable {kinds : List Kind}

theorem mem_keywordEntries_iff {word : String} {place : Nat} :
    (word, place) ∈ keywordEntries kinds ↔
      ∃ kind keyword, kinds[place]? = some kind ∧ keyword ∈ kind.keywords ∧
        keyword.toLower = word := by
  simp only [keywordEntries, List.mem_flatMap, List.mem_map, Prod.mk.injEq]
  constructor
  · rintro ⟨entry, hentry, keyword, hkeyword, rfl, rfl⟩
    exact ⟨entry.1, keyword, List.mem_zipIdx_iff_getElem?.mp hentry, hkeyword, rfl⟩
  · rintro ⟨kind, keyword, hkind, hkeyword, rfl⟩
    exact ⟨(kind, place), List.mem_zipIdx_iff_getElem?.mpr hkind, keyword, hkeyword, rfl, rfl⟩

theorem mem_nameEntries_iff {name : String} {place : Nat} :
    (name, place) ∈ nameEntries kinds ↔ ∃ kind, kinds[place]? = some kind ∧ kind.name = name := by
  simp only [nameEntries, List.mem_map, Prod.mk.injEq]
  constructor
  · rintro ⟨entry, hentry, rfl, rfl⟩
    exact ⟨entry.1, List.mem_zipIdx_iff_getElem?.mp hentry, rfl⟩
  · rintro ⟨kind, hkind, rfl⟩
    exact ⟨(kind, place), List.mem_zipIdx_iff_getElem?.mpr hkind, rfl, rfl⟩

end Kind

/-! ## What a registry finds -/

namespace Registry

variable {kinds : List Kind}

theorem mem_kinds_of_lookup {registry : Registry} {word : String} {kind : Kind}
    (h : registry.lookup word = some kind) : kind ∈ registry.kinds := by
  obtain ⟨place, -, hkind⟩ := Option.bind_eq_some_iff.mp h
  exact List.mem_of_getElem? hkind

/-- A word is looked up in letters of either case, for an index has words in lowercase only. -/
theorem lookup_lower (registry : Registry) (word : String) :
    registry.lookup word.toLower = registry.lookup word := by
  have hlower : ∀ place, registry.keywordIndex.find? word = some place → word.toLower = word := by
    intro place hfind
    rw [registry.keywordIndex_eq] at hfind
    obtain ⟨_, keyword, _, _, rfl⟩ := Kind.mem_keywordEntries_iff.mp (Index.mem_of_find? hfind)
    exact lower_lower keyword
  unfold lookup
  rw [lower_lower, Option.or_self]
  cases hfind : registry.keywordIndex.find? word with
  | none => rfl
  | some place =>
    rw [hlower place hfind, hfind]
    rfl

theorem find?_keywordIndex_iff (h : Unambiguous kinds) (word : String) (place : Nat) :
    (ofKinds kinds).keywordIndex.find? word = some place ↔
      ∃ kind, kinds[place]? = some kind ∧ word ∈ kind.keywords := by
  have hentries : ∀ word place, (word, place) ∈ Kind.keywordEntries kinds ↔
      ∃ kind, kinds[place]? = some kind ∧ word ∈ kind.keywords := by
    intro word place
    rw [Kind.mem_keywordEntries_iff]
    constructor
    · rintro ⟨kind, keyword, hkind, hkeyword, rfl⟩
      have hplain := (h.proper kind (List.mem_of_getElem? hkind)).plain keyword hkeyword
      exact ⟨kind, hkind, by rwa [hplain.lower]⟩
    · rintro ⟨kind, hkind, hword⟩
      have hplain := (h.proper kind (List.mem_of_getElem? hkind)).plain word hword
      exact ⟨kind, word, hkind, hword, hplain.lower⟩
  rw [← hentries]
  refine Index.find?_insertAll_iff (fun word i j hi hj => ?_) word place
  obtain ⟨a, ha, hwa⟩ := (hentries word i).mp hi
  obtain ⟨b, hb, hwb⟩ := (hentries word j).mp hj
  exact h.place_unique_of_keyword ha hb hwa hwb

theorem find?_nameIndex_iff (h : Unambiguous kinds) (name : String) (place : Nat) :
    (ofKinds kinds).nameIndex.find? name = some place ↔
      ∃ kind, kinds[place]? = some kind ∧ kind.name = name := by
  rw [← Kind.mem_nameEntries_iff]
  refine Index.find?_insertAll_iff (fun name i j hi hj => ?_) name place
  obtain ⟨a, ha, rfl⟩ := Kind.mem_nameEntries_iff.mp hi
  obtain ⟨b, hb, hname⟩ := Kind.mem_nameEntries_iff.mp hj
  exact h.place_unique_of_name ha hb hname.symm

/-- Looking a word up as it stands first makes no difference: a keyword is its own lowercase. -/
theorem lookup_ofKinds (h : Unambiguous kinds) (word : String) :
    (ofKinds kinds).lookup word =
      ((ofKinds kinds).keywordIndex.find? word.toLower).bind fun place => kinds[place]? := by
  unfold lookup
  cases hfind : (ofKinds kinds).keywordIndex.find? word with
  | none => rfl
  | some place =>
    obtain ⟨kind, hkind, hword⟩ := (find?_keywordIndex_iff h word place).mp hfind
    have hplain := (h.proper kind (List.mem_of_getElem? hkind)).plain word hword
    rw [hplain.lower, hfind]
    rfl

/-- A word is looked up to a kind exactly when it selects the kind. -/
theorem lookup_ofKinds_iff (h : Unambiguous kinds) (word : String) (kind : Kind) :
    (ofKinds kinds).lookup word = some kind ↔ kind ∈ kinds ∧ kind.isSelectedBy word = true := by
  rw [lookup_ofKinds h, Option.bind_eq_some_iff]
  constructor
  · rintro ⟨place, hfind, hkind⟩
    obtain ⟨k, hk, hword⟩ := (find?_keywordIndex_iff h _ place).mp hfind
    obtain rfl : k = kind := Option.some.inj (hk.symm.trans hkind)
    have hmem := List.mem_of_getElem? hkind
    exact ⟨hmem, ((h.proper k hmem).isSelectedBy_iff word).mpr hword⟩
  · rintro ⟨hmem, hselected⟩
    obtain ⟨place, hkind⟩ := List.mem_iff_getElem?.mp hmem
    have hword := ((h.proper kind hmem).isSelectedBy_iff word).mp hselected
    exact ⟨place, (find?_keywordIndex_iff h _ place).mpr ⟨kind, hkind, hword⟩, hkind⟩

/-- What a registry looks up is what going through its kinds finds. -/
theorem lookup_ofKinds_eq_find? (h : Unambiguous kinds) (word : String) :
    (ofKinds kinds).lookup word = kinds.find? fun kind => kind.isSelectedBy word := by
  cases hfind : kinds.find? fun kind => kind.isSelectedBy word with
  | some kind =>
    exact (lookup_ofKinds_iff h word kind).mpr
      ⟨List.mem_of_find?_eq_some hfind, by simpa using List.find?_some hfind⟩
  | none =>
    rw [Option.eq_none_iff_forall_ne_some]
    intro kind hlookup
    obtain ⟨hmem, hselected⟩ := (lookup_ofKinds_iff h word kind).mp hlookup
    exact List.find?_eq_none.mp hfind kind hmem hselected

theorem get?_ofKinds_iff (h : Unambiguous kinds) (name : String) (kind : Kind) :
    (ofKinds kinds).get? name = some kind ↔ kind ∈ kinds ∧ kind.name = name := by
  unfold get?
  rw [Option.bind_eq_some_iff]
  constructor
  · rintro ⟨place, hfind, hkind⟩
    obtain ⟨k, hk, hname⟩ := (find?_nameIndex_iff h _ place).mp hfind
    obtain rfl : k = kind := Option.some.inj (hk.symm.trans hkind)
    exact ⟨List.mem_of_getElem? hkind, hname⟩
  · rintro ⟨hmem, hname⟩
    obtain ⟨place, hkind⟩ := List.mem_iff_getElem?.mp hmem
    exact ⟨place, (find?_nameIndex_iff h _ place).mpr ⟨kind, hkind, hname⟩, hkind⟩

theorem isKeyword_ofKinds_iff (h : Unambiguous kinds) (word : String) :
    (ofKinds kinds).isKeyword word = true ↔ ∃ kind ∈ kinds, kind.isSelectedBy word = true := by
  unfold isKeyword
  rw [Option.isSome_iff_exists]
  exact exists_congr fun kind => lookup_ofKinds_iff h word kind

theorem nodup_keywords (registry : Registry) : registry.keywords.Nodup :=
  (List.mergeSort_perm _ _).nodup_iff.mpr registry.keywordIndex.nodup

theorem mem_keywords_ofKinds (h : Unambiguous kinds) (word : String) :
    word ∈ (ofKinds kinds).keywords ↔ ∃ kind ∈ kinds, word ∈ kind.keywords := by
  unfold keywords
  rw [List.mem_mergeSort, ← Index.isSome_find?_iff, Option.isSome_iff_exists]
  constructor
  · rintro ⟨place, hfind⟩
    obtain ⟨kind, hkind, hword⟩ := (find?_keywordIndex_iff h word place).mp hfind
    exact ⟨kind, List.mem_of_getElem? hkind, hword⟩
  · rintro ⟨kind, hmem, hword⟩
    obtain ⟨place, hkind⟩ := List.mem_iff_getElem?.mp hmem
    exact ⟨place, (find?_keywordIndex_iff h word place).mpr ⟨kind, hkind, hword⟩⟩

end Registry

end NameGuard
