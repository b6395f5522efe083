import KnowledgeCompiler.Lib.Binary64.Sum
import KnowledgeCompiler.Lib.Method
import KnowledgeCompiler.Lib.Lists
import KnowledgeCompiler.Ontology.Induction
import Mathlib

namespace KnowledgeCompiler.Ontology

open Lib Method
open Text (is_blank trim_where trim trim_where_self)

section Slugs

theorem length_replace_double (slug : List Char) :
    (replace_double slug).length ≤ slug.length ∧
      (has_double slug = true → (replace_double slug).length < slug.length) := by
  fun_induction replace_double slug with
  | case1 rest ih =>
      simp only [List.length_cons]
      exact ⟨by omega, fun _ => by omega⟩
  | case2 c rest hfirst ih =>
      simp only [List.length_cons]
      refine ⟨by omega, fun hdouble => ?_⟩
      rw [has_double.eq_2 c rest hfirst] at hdouble
      have := ih.2 hdouble
      omega
  | case3 => exact ⟨le_rfl, nofun⟩

theorem collapse_done {fuel : ℕ} {slug : List Char} (hfuel : slug.length ≤ fuel) :
    has_double (collapse fuel slug) = false := by
  induction fuel generalizing slug with
  | zero =>
      rw [List.length_eq_zero_iff.mp (Nat.le_zero.mp hfuel)]
      rfl
  | succ fuel ih =>
      rw [collapse]
      split
      · rename_i hdouble
        have hshorter := (length_replace_double slug).2 hdouble
        exact ih (by omega)
      · rename_i hsingle
        exact Bool.not_eq_true _ ▸ hsingle

theorem mem_replace_double {slug : List Char} {c : Char} (hc : c ∈ replace_double slug) : c ∈ slug := by
  fun_induction replace_double slug with
  | case1 rest ih =>
      rcases List.mem_cons.mp hc with rfl | hlater
      · exact List.mem_cons_self
      · exact List.mem_cons_of_mem _ (List.mem_cons_of_mem _ (ih hlater))
  | case2 first rest hfirst ih =>
      rcases List.mem_cons.mp hc with rfl | hlater
      · exact List.mem_cons_self
      · exact List.mem_cons_of_mem _ (ih hlater)
  | case3 => cases hc

theorem mem_collapse {fuel : ℕ} {slug : List Char} {c : Char} (hc : c ∈ collapse fuel slug) : c ∈ slug := by
  induction fuel generalizing slug with
  | zero => exact hc
  | succ fuel ih =>
      rw [collapse] at hc
      split at hc
      · exact mem_replace_double (ih hc)
      · exact hc

theorem mem_trim_where {out : Char → Bool} {text : List Char} {c : Char} (hc : c ∈ trim_where out text) :
    c ∈ text := by
  rw [trim_where, List.mem_reverse] at hc
  exact (List.dropWhile_sublist _).mem (List.mem_reverse.mp ((List.dropWhile_sublist _).mem hc))

-- A text without blanks.
def Visible (text : String) : Prop := ∀ c ∈ text.toList, is_blank c = false

theorem trim_of_visible {text : String} (hvisible : Visible text) : trim text = text := by
  rw [trim, trim_where_self, String.ofList_toList]
  · exact fun c hc => hvisible c (List.mem_of_head? hc)
  · exact fun c hc => hvisible c (List.mem_of_getLast? hc)

variable (characters : Characters)

theorem visible_kind_slug (surface : String) : Visible (_kind_slug characters surface) := by
  intro c hc
  rw [_kind_slug, String.toList_ofList] at hc
  obtain ⟨ch, -, rfl⟩ := List.mem_map.mp (mem_collapse (mem_trim_where hc))
  split
  · rename_i halnum
    exact characters.visible ch halnum
  · decide

theorem slug_of_spec (name : String) : Visible (slug_of characters name) ∧ slug_of characters name ≠ "" := by
  rw [slug_of]
  split
  · have hentity : "entity".toList.all (fun c => !is_blank c) = true := by decide
    refine ⟨fun c hc => ?_, by decide⟩
    simpa using List.all_eq_true.mp hentity c hc
  · rename_i hslug
    exact ⟨visible_kind_slug characters name, hslug⟩

-- The number that a kind may end in.
def numeral (occurrences : ℕ) : List Char := (toString (occurrences + 1)).toList

theorem isDigit_of_mem_numeral {occurrences : ℕ} {c : Char} (hc : c ∈ numeral occurrences) :
    c.isDigit = true := by
  rw [numeral, Nat.toString_eq_repr, Nat.toList_repr] at hc
  exact Nat.isDigit_of_mem_toDigits (by decide) (by decide) hc

theorem not_blank_of_isDigit {c : Char} (hdigit : c.isDigit = true) : is_blank c = false := by
  have hrange : 48 ≤ c.toNat ∧ c.toNat ≤ 57 := by
    rw [Char.isDigit, Bool.and_eq_true, decide_eq_true_eq, decide_eq_true_eq] at hdigit
    exact hdigit
  simp [is_blank, Text.inRanges]
  omega

theorem kind_name_of_pos (slug : String) {occurrences : ℕ} (hpos : 0 < occurrences) :
    (kind_name slug occurrences).toList = slug.toList ++ '_' :: numeral occurrences := by
  rw [kind_name, if_neg hpos.ne', numeral]
  simp [toString]

theorem visible_kind_name {slug : String} (hslug : Visible slug) (occurrences : ℕ) :
    Visible (kind_name slug occurrences) := by
  rcases Nat.eq_zero_or_pos occurrences with rfl | hpos
  · exact hslug
  · intro c hc
    rw [kind_name_of_pos slug hpos] at hc
    rcases List.mem_append.mp hc with hslug_mem | hc
    · exact hslug c hslug_mem
    rcases List.mem_cons.mp hc with rfl | hdigit
    · decide
    · exact not_blank_of_isDigit (isDigit_of_mem_numeral hdigit)

theorem kind_name_ne_empty {slug : String} (hslug : slug ≠ "") (occurrences : ℕ) :
    kind_name slug occurrences ≠ "" := by
  rcases Nat.eq_zero_or_pos occurrences with rfl | hpos
  · exact hslug
  · intro hempty
    have hlist := kind_name_of_pos slug hpos
    rw [hempty] at hlist
    simp at hlist

end Slugs

section Kinds

-- Two numbers behind the last dash of two names tell them apart.
theorem append_numeral_inj {first second : List Char} {n m : ℕ}
    (hequal : first ++ '_' :: numeral n = second ++ '_' :: numeral m) : first = second ∧ n = m := by
  have hdash : ∀ k, '_' ∉ numeral k := fun k hmem => by
    have hdigit := isDigit_of_mem_numeral hmem
    revert hdigit
    decide
  have hcut : ∀ (word : List Char) (k : ℕ),
      (word ++ '_' :: numeral k).reverse.takeWhile (· ≠ '_') = (numeral k).reverse := by
    intro word k
    have hreverse : (word ++ '_' :: numeral k).reverse =
        (numeral k).reverse ++ '_' :: word.reverse := by simp
    rw [hreverse, List.takeWhile_append_of_pos, List.takeWhile_cons_of_neg (by simp), List.append_nil]
    intro c hc
    rw [decide_eq_true_eq]
    rintro rfl
    exact hdash k (List.mem_reverse.mp hc)
  have hnumeral : numeral n = numeral m := by
    have htaken := congrArg (fun word => word.reverse.takeWhile (· ≠ '_')) hequal
    simp only [hcut] at htaken
    exact List.reverse_injective htaken
  have hnumber : n = m := by
    have htext := String.toList_injective hnumeral
    rw [Nat.toString_eq_repr, Nat.toString_eq_repr] at htext
    exact Nat.succ_injective (Nat.repr_injective htext)
  subst hnumber
  exact ⟨List.append_cancel_right hequal, rfl⟩

-- When kinds of two slugs are the same.
theorem kind_name_eq_iff {first second : String} {n m : ℕ} :
    kind_name first n = kind_name second m ↔
      first = second ∧ n = m ∨ n = 0 ∧ 0 < m ∧ first = kind_name second m ∨
        m = 0 ∧ 0 < n ∧ second = kind_name first n := by
  rcases Nat.eq_zero_or_pos n with rfl | hn
  · rcases Nat.eq_zero_or_pos m with rfl | hm
    · simp [kind_name]
    · have hname : kind_name first 0 = first := rfl
      rw [hname]
      simp [hm, hm.ne, hm.ne']
  · rcases Nat.eq_zero_or_pos m with rfl | hm
    · have hname : kind_name second 0 = second := rfl
      rw [hname]
      simp [hn, hn.ne', eq_comm]
    · have hinj : kind_name first n = kind_name second m → first = second ∧ n = m := by
        intro hequal
        have hlist := congrArg String.toList hequal
        rw [kind_name_of_pos first hn, kind_name_of_pos second hm] at hlist
        obtain ⟨hslug, hnumber⟩ := append_numeral_inj hlist
        exact ⟨String.toList_injective hslug, hnumber⟩
      constructor
      · exact fun hequal => Or.inl (hinj hequal)
      · rintro (⟨rfl, rfl⟩ | ⟨hzero, -⟩ | ⟨hzero, -⟩)
        · rfl
        · omega
        · omega

-- No slug is what the number of another makes of it.
def SlugsApart (slugs : List String) : Prop :=
  ∀ slug ∈ slugs, ∀ occurrence < slugs.count slug, 0 < occurrence → kind_name slug occurrence ∉ slugs

def kinds_of (slugs : List String) : List String :=
  (occurrences slugs).map (fun occurrence => kind_name occurrence.1 occurrence.2)

theorem kinds_nodup_iff (slugs : List String) : (kinds_of slugs).Nodup ↔ SlugsApart slugs := by
  rw [kinds_of, nodup_map_occurrences_iff]
  constructor
  · intro hnames slug hslug occurrence hoccurrence hpos hmem
    have hzero : 0 < slugs.count (kind_name slug occurrence) := List.count_pos_iff.mpr hmem
    obtain ⟨-, hnumber⟩ := hnames (kind_name slug occurrence) 0 slug occurrence hzero hoccurrence rfl
    omega
  · intro hapart first n second m hfirst hsecond hname
    rcases kind_name_eq_iff.mp hname with hsame | ⟨-, hpos, rfl⟩ | ⟨-, hpos, rfl⟩
    · exact hsame
    · have hmem := List.count_pos_iff.mp (Nat.zero_lt_of_lt hfirst)
      have hslug := List.count_pos_iff.mp (Nat.zero_lt_of_lt hsecond)
      exact absurd hmem (hapart second hslug m hsecond hpos)
    · have hmem := List.count_pos_iff.mp (Nat.zero_lt_of_lt hsecond)
      have hslug := List.count_pos_iff.mp (Nat.zero_lt_of_lt hfirst)
      exact absurd hmem (hapart first hslug n hfirst hpos)

end Kinds

section Fields

theorem exists_non_empty_str {value : String} (field : String) (htrim : trim value = value)
    (hne : value ≠ "") : ∃ text : NonEmptyStr, non_empty_str field value = .ok text ∧ text.text = value := by
  rw [non_empty_str, dif_neg (by rwa [htrim])]
  exact ⟨_, rfl, htrim⟩

theorem exists_entity_candidate {name kind : String} {count : ℕ} {share : Binary64}
    (hname : trim name = name) (hname_ne : name ≠ "") (hkind : trim kind = kind) (hkind_ne : kind ≠ "")
    (hcount : 1 ≤ count) (hshare : in_unit share = true) :
    ∃ candidate, entity_candidate name kind count share = .ok candidate ∧
      candidate.name.text = name ∧ candidate.suggested_kind.text = kind := by
  obtain ⟨name_text, hname_text, hname_eq⟩ := exists_non_empty_str "name" hname hname_ne
  obtain ⟨kind_text, hkind_text, hkind_eq⟩ := exists_non_empty_str "suggestedKind" hkind hkind_ne
  rw [entity_candidate, hname_text, hkind_text]
  dsimp only [bind, Except.bind]
  rw [dif_pos hcount, dif_pos hshare]
  exact ⟨_, rfl, hname_eq, hkind_eq⟩

-- What is in the unit interval of the quotients of naturals.
theorem in_unit_finite {value : ℚ} (hnonneg : 0 ≤ value) :
    in_unit (.finite value) = true ↔ value ≤ 1 := by
  simp [in_unit, Binary64.lt, hnonneg]

theorem true_div_eq_ok {a b : ℕ} {quotient : Binary64} (hquotient : Binary64.quotient? a b = some quotient) :
    true_div a b = .ok quotient := by
  unfold true_div
  rw [hquotient]

theorem exists_share {count total : ℕ} (hle : count ≤ total) (htotal : total ≠ 0) :
    ∃ share, ratio count total = .ok share ∧ in_unit share = true := by
  obtain ⟨share, hquotient, hnonneg, hone⟩ := Binary64.exists_quotient_of_le hle
  have hshare : ratio count total = .ok (.finite share) := by
    rw [ratio, if_pos htotal]
    exact true_div_eq_ok hquotient
  exact ⟨.finite share, hshare, (in_unit_finite hnonneg).mpr hone⟩

theorem exists_relation_candidate {source target : NonEmptyStr} {support : ℕ} (hsupport : 1 ≤ support)
    (affinity : Binary64) :
    (in_unit affinity = true → ∃ candidate,
      relation_candidate source.text target.text RELATES_TO_KIND support affinity = .ok candidate ∧
      candidate.source = source ∧ candidate.target = target) ∧
    (in_unit affinity = false →
      relation_candidate source.text target.text RELATES_TO_KIND support affinity =
        .error (.validation_error "affinity")) := by
  have hkeep : ∀ (field : String) (text : NonEmptyStr), non_empty_str field text.text = .ok text := by
    intro field text
    obtain ⟨found, hfound, hsame⟩ := exists_non_empty_str field text.trimmed text.nonempty
    rw [hfound]
    cases found
    cases text
    cases hsame
    rfl
  have hkind : ∃ kind, non_empty_str "suggestedKind" RELATES_TO_KIND = .ok kind := ⟨_, rfl⟩
  obtain ⟨kind, hkind⟩ := hkind
  rw [relation_candidate, hkeep, hkeep, hkind]
  dsimp only [bind, Except.bind]
  rw [dif_pos hsupport]
  constructor
  · intro haffinity
    rw [dif_pos haffinity]
    exact ⟨_, rfl, rfl, rfl⟩
  · intro haffinity
    rw [dif_neg (by rw [haffinity]; exact Bool.false_ne_true)]

end Fields

section Entities

variable {characters : Characters} {stats : CorpusStats} {config : InductionConfig}

-- What the statistics say of a name that is ranked.
structure Countable (total : ℕ) (item : String × ℕ) : Prop where
  trimmed : trim item.1 = item.1
  nonempty : item.1 ≠ ""
  counted : 1 ≤ item.2
  within : item.2 ≤ total

theorem countable_of_ranked {item : String × ℕ} (hitem : item ∈ _ranked_entities stats config) :
    Countable stats.total_mentions item := by
  have hentry : item ∈ stats.entity_mentions.entries := by
    have hsorted := List.mem_of_mem_take hitem
    rw [List.mem_insertionSort] at hsorted
    exact List.mem_of_mem_filter hsorted
  obtain ⟨htrim, hvisible⟩ := stats.named item.1 (List.mem_map_of_mem hentry)
  refine ⟨htrim, ?_, stats.positive item.1 item.2 ((Dict.mem_entries_iff _ _ _).mp hentry), ?_⟩
  · intro hempty
    rw [hempty] at hvisible
    exact hvisible rfl
  · exact List.le_sum_of_mem (List.mem_map_of_mem hentry)

theorem induce_entity_step {total : ℕ} {item : String × ℕ} (hitem : Countable total item)
    (state : List EntityCandidate × Dict String ℕ) :
    ∃ candidate : EntityCandidate,
      induce_entity characters total state item = .ok (state.1 ++ [candidate],
        state.2.set (slug_of characters item.1)
          ((state.2.get? (slug_of characters item.1)).getD 0 + 1)) ∧
      candidate.name.text = item.1 ∧ candidate.suggested_kind.text =
        kind_name (slug_of characters item.1) ((state.2.get? (slug_of characters item.1)).getD 0) := by
  obtain ⟨hvisible, hslug⟩ := slug_of_spec characters item.1
  have htotal : total ≠ 0 := by
    have hcounted := hitem.counted
    have hwithin := hitem.within
    omega
  obtain ⟨share, hshare, hunit⟩ := exists_share hitem.within htotal
  obtain ⟨candidate, hcandidate, hname, hkind⟩ := exists_entity_candidate hitem.trimmed hitem.nonempty
    (trim_of_visible (visible_kind_name hvisible ((state.2.get? (slug_of characters item.1)).getD 0)))
    (kind_name_ne_empty hslug _) hitem.counted hunit
  refine ⟨candidate, ?_, hname, hkind⟩
  rw [induce_entity, hshare]
  dsimp only [bind, Except.bind]
  rw [hcandidate]
  rfl

theorem induce_entity_run {total : ℕ} {items : List (String × ℕ)} {seen : List String}
    {state : List EntityCandidate × Dict String ℕ} (hitems : ∀ item ∈ items, Countable total item)
    (hseen : ∀ slug, (state.2.get? slug).getD 0 = seen.count slug) :
    ∃ final, items.foldlM (induce_entity characters total) state = .ok final ∧
      final.1.map (fun candidate => candidate.name.text) =
        state.1.map (fun candidate => candidate.name.text) ++ items.map Prod.fst ∧
      final.1.map (fun candidate => candidate.suggested_kind.text) =
        state.1.map (fun candidate => candidate.suggested_kind.text) ++
          (occurrencesFrom seen (items.map (fun item => slug_of characters item.1))).map
            (fun occurrence => kind_name occurrence.1 occurrence.2) := by
  induction items generalizing state seen with
  | nil => exact ⟨state, rfl, (List.append_nil _).symm, (List.append_nil _).symm⟩
  | cons item rest ih =>
      obtain ⟨hitem, hrest⟩ := List.forall_mem_cons.mp hitems
      obtain ⟨candidate, hstep, hname, hkind⟩ := @induce_entity_step characters _ _ hitem state
      have hnext : ∀ slug, ((state.2.set (slug_of characters item.1)
          ((state.2.get? (slug_of characters item.1)).getD 0 + 1)).get? slug).getD 0 =
          (slug_of characters item.1 :: seen).count slug := by
        intro slug
        rw [Dict.get?_set]
        split
        · rename_i hslug
          rw [hslug, Option.getD_some, hseen, List.count_cons_self]
        · rename_i hslug
          rw [hseen, List.count_cons_of_ne (Ne.symm hslug)]
      rw [List.foldlM_cons, hstep]
      obtain ⟨final, hfinal, hnames, hkinds⟩ := @ih (slug_of characters item.1 :: seen)
        (state.1 ++ [candidate], state.2.set (slug_of characters item.1)
          ((state.2.get? (slug_of characters item.1)).getD 0 + 1)) hrest hnext
      refine ⟨final, hfinal, ?_, ?_⟩
      · rw [hnames]
        simp [hname]
      · rw [hkinds, List.map_cons, occurrencesFrom]
        simp [hkind, hseen]

theorem exists_entity_candidates (characters : Characters) (stats : CorpusStats) (config : InductionConfig) :
    ∃ candidates, _induce_entity_candidates characters stats config = .ok candidates ∧
      candidates.map (fun candidate => candidate.name.text) =
        (_ranked_entities stats config).map Prod.fst ∧
      candidates.map (fun candidate => candidate.suggested_kind.text) =
        kinds_of ((_ranked_entities stats config).map (fun item => slug_of characters item.1)) := by
  obtain ⟨final, hfinal, hnames, hkinds⟩ := @induce_entity_run characters stats.total_mentions
    (_ranked_entities stats config) [] ([], .empty) (fun item => countable_of_ranked) (fun _ => rfl)
  refine ⟨final.1, ?_, hnames, hkinds⟩
  rw [_induce_entity_candidates, hfinal]
  rfl

end Entities

section Relations

variable {stats : CorpusStats} {config : InductionConfig}

def least_mentions (stats : CorpusStats) (entity_a entity_b : String) : ℕ :=
  min (stats.mentions entity_a) (stats.mentions entity_b)

-- What an observed pair comes to where its quotient is a float.
def found_pair (stats : CorpusStats) (config : InductionConfig) (pair : CoOccurrence) :
    Option RelationPair :=
  if pair.count < config.min_co_occurrence then none
  else
    (Binary64.quotient? pair.count (least_mentions stats pair.entity_a.text pair.entity_b.text)).bind
      (fun affinity =>
        if affinity.lt config.min_pair_affinity then none
        else some ⟨pair.count, pair.entity_a.text, pair.entity_b.text, affinity⟩)

-- The pairs that are proposed as relations.
def chosen_pairs (stats : CorpusStats) (config : InductionConfig) : List RelationPair :=
  ((stats.co_occurrences.filterMap (found_pair stats config)).insertionSort pair_before).take
    config.max_relation_candidates

def Representable (stats : CorpusStats) (config : InductionConfig) (pairs : List CoOccurrence) : Prop :=
  ∀ pair ∈ pairs, config.min_co_occurrence ≤ pair.count →
    (Binary64.quotient? pair.count
      (least_mentions stats pair.entity_a.text pair.entity_b.text)).isSome = true

theorem least_mentions_pos {pair : CoOccurrence} (hpair : pair ∈ stats.co_occurrences) :
    0 < least_mentions stats pair.entity_a.text pair.entity_b.text := by
  have hmentioned : ∀ name ∈ stats.entity_mentions.keys, 0 < stats.mentions name := by
    intro name hname
    obtain ⟨count, hcount⟩ := (Dict.mem_keys_iff _ _).mp hname
    rw [CorpusStats.mentions, hcount]
    exact stats.positive name count hcount
  obtain ⟨hfirst, hsecond⟩ := stats.observed pair hpair
  exact lt_min (hmentioned _ hfirst) (hmentioned _ hsecond)

theorem induce_pair_cases {pair : CoOccurrence} (hpair : pair ∈ stats.co_occurrences)
    (pairs : List RelationPair) :
    (Representable stats config [pair] ∧
      induce_pair stats config pairs pair = .ok (pairs ++ (found_pair stats config pair).toList)) ∨
    (¬Representable stats config [pair] ∧
      induce_pair stats config pairs pair = .error .overflow_error) := by
  have hpos := least_mentions_pos hpair
  have hone : Representable stats config [pair] ↔ (config.min_co_occurrence ≤ pair.count →
      (Binary64.quotient? pair.count
        (least_mentions stats pair.entity_a.text pair.entity_b.text)).isSome = true) := by
    rw [Representable, List.forall_mem_singleton]
  rw [hone, induce_pair, found_pair]
  by_cases hrare : pair.count < config.min_co_occurrence
  · rw [if_pos hrare, if_pos hrare]
    exact Or.inl ⟨fun h => absurd hrare (not_lt.mpr h), by rw [Option.toList_none, List.append_nil]⟩
  rw [if_neg hrare, if_neg hrare]
  have hratio : ratio pair.count (min (stats.mentions pair.entity_a.text)
      (stats.mentions pair.entity_b.text)) = true_div pair.count
        (least_mentions stats pair.entity_a.text pair.entity_b.text) := if_pos hpos.ne'
  dsimp only
  rw [hratio]
  cases hquotient : Binary64.quotient? pair.count
      (least_mentions stats pair.entity_a.text pair.entity_b.text) with
  | none =>
      have hraised : true_div pair.count (least_mentions stats pair.entity_a.text pair.entity_b.text) =
          .error .overflow_error := by
        unfold true_div
        rw [hquotient]
      rw [hraised]
      exact Or.inr ⟨fun h => absurd (h (not_lt.mp hrare)) (by simp), rfl⟩
  | some affinity =>
      rw [true_div_eq_ok hquotient]
      refine Or.inl ⟨fun _ => rfl, ?_⟩
      dsimp only [bind, Except.bind, Option.bind]
      split
      · rw [Option.toList_none, List.append_nil]
      · rfl

theorem induce_pairs_eq_ok_iff {items : List CoOccurrence} (hitems : items ⊆ stats.co_occurrences)
    {pairs final : List RelationPair} :
    items.foldlM (induce_pair stats config) pairs = .ok final ↔
      Representable stats config items ∧ final = pairs ++ items.filterMap (found_pair stats config) := by
  induction items generalizing pairs with
  | nil =>
      constructor
      · rintro ⟨⟩
        exact ⟨fun _ hmem => absurd hmem List.not_mem_nil, (List.append_nil _).symm⟩
      · rintro ⟨-, rfl⟩
        rw [List.filterMap_nil, List.append_nil]
        rfl
  | cons pair rest ih =>
      obtain ⟨hpair, hrest⟩ := List.cons_subset.mp hitems
      have hcons : Representable stats config (pair :: rest) ↔
          Representable stats config [pair] ∧ Representable stats config rest := by
        unfold Representable
        rw [List.forall_mem_cons, List.forall_mem_singleton]
      have hfound : (pair :: rest).filterMap (found_pair stats config) =
          (found_pair stats config pair).toList ++ rest.filterMap (found_pair stats config) := by
        cases hpair_found : found_pair stats config pair with
        | none => rw [List.filterMap_cons_none hpair_found]; rfl
        | some found => rw [List.filterMap_cons_some hpair_found]; rfl
      rw [List.foldlM_cons, hcons, hfound]
      rcases @induce_pair_cases stats config _ hpair pairs with ⟨hone, hstep⟩ | ⟨hnot, hstep⟩
      · rw [hstep, ← List.append_assoc]
        refine (ih hrest).trans ?_
        rw [and_iff_right hone]
      · rw [hstep]
        exact iff_of_false nofun fun h => hnot h.1.1

-- A pair that is chosen has been observed, and its affinity is the quotient.
theorem observed_of_chosen {found : RelationPair} (hfound : found ∈ chosen_pairs stats config) :
    ∃ pair ∈ stats.co_occurrences, found.count = pair.count ∧ found.entity_a = pair.entity_a.text ∧
      found.entity_b = pair.entity_b.text ∧
      Binary64.quotient? found.count (least_mentions stats found.entity_a found.entity_b) =
        some found.affinity := by
  have hsorted := List.mem_of_mem_take hfound
  rw [List.mem_insertionSort] at hsorted
  obtain ⟨pair, hpair, hmade⟩ := List.mem_filterMap.mp hsorted
  rw [found_pair] at hmade
  split at hmade
  · cases hmade
  obtain ⟨affinity, hquotient, hkept⟩ := Option.bind_eq_some_iff.mp hmade
  split at hkept
  · cases hkept
  obtain rfl := Option.some.inj hkept
  exact ⟨pair, hpair, rfl, rfl, rfl, hquotient⟩

theorem in_unit_iff_of_chosen {found : RelationPair} (hfound : found ∈ chosen_pairs stats config) :
    in_unit found.affinity = true ↔
      found.count * 2 ^ 53 ≤ least_mentions stats found.entity_a found.entity_b * (2 ^ 53 + 1) := by
  obtain ⟨pair, hpair, -, hfirst, hsecond, hquotient⟩ := observed_of_chosen hfound
  have hpos : 0 < least_mentions stats found.entity_a found.entity_b := by
    rw [hfirst, hsecond]
    exact least_mentions_pos hpair
  obtain ⟨value, hvalue, hnonneg, hone⟩ := Binary64.exists_of_quotient hpos hquotient
  rw [hvalue, in_unit_finite hnonneg, hone]

def relation_of (pair : RelationPair) : Except Raised RelationCandidate :=
  relation_candidate pair.entity_a pair.entity_b RELATES_TO_KIND pair.count pair.affinity

theorem relation_of_chosen {found : RelationPair} (hfound : found ∈ chosen_pairs stats config)
    {candidate : RelationCandidate} (hcandidate : relation_of found = .ok candidate) :
    in_unit found.affinity = true ∧ candidate.source.text = found.entity_a ∧
      candidate.target.text = found.entity_b := by
  obtain ⟨pair, -, hcount, hfirst, hsecond, -⟩ := observed_of_chosen hfound
  obtain ⟨hinside, houtside⟩ := @exists_relation_candidate pair.entity_a pair.entity_b pair.count
    pair.counted found.affinity
  rw [relation_of, hfirst, hsecond, hcount] at hcandidate
  cases haffinity : in_unit found.affinity with
  | false =>
      rw [houtside haffinity] at hcandidate
      cases hcandidate
  | true =>
      obtain ⟨made, hmade, hsource, htarget⟩ := hinside haffinity
      obtain rfl := Except.ok.inj (hmade.symm.trans hcandidate)
      exact ⟨rfl, by rw [hsource, hfirst], by rw [htarget, hsecond]⟩

theorem exists_relation_of {found : RelationPair} (hfound : found ∈ chosen_pairs stats config)
    (haffinity : in_unit found.affinity = true) : ∃ candidate, relation_of found = .ok candidate := by
  obtain ⟨pair, -, hcount, hfirst, hsecond, -⟩ := observed_of_chosen hfound
  obtain ⟨candidate, hcandidate, -⟩ := (@exists_relation_candidate pair.entity_a pair.entity_b pair.count
    pair.counted found.affinity).1 haffinity
  rw [relation_of, hfirst, hsecond, hcount]
  exact ⟨candidate, hcandidate⟩

-- The quotients of the pairs that are chosen are no more than one as floats.
def Bounded (stats : CorpusStats) (config : InductionConfig) : Prop :=
  ∀ pair ∈ chosen_pairs stats config,
    pair.count * 2 ^ 53 ≤ least_mentions stats pair.entity_a pair.entity_b * (2 ^ 53 + 1)

theorem relation_candidates_eq (stats : CorpusStats) (config : InductionConfig)
    (hfloats : Representable stats config stats.co_occurrences) :
    _induce_relation_candidates stats config = (chosen_pairs stats config).mapM relation_of := by
  have hpairs := (@induce_pairs_eq_ok_iff stats config _ (List.Subset.refl _) [] _).mpr ⟨hfloats, rfl⟩
  rw [_induce_relation_candidates, hpairs, List.nil_append]
  rfl

theorem relation_candidates_spec {candidates : List RelationCandidate}
    (hcandidates : _induce_relation_candidates stats config = .ok candidates) :
    Representable stats config stats.co_occurrences ∧ Bounded stats config ∧
      (∀ pair ∈ chosen_pairs stats config, ∃ candidate ∈ candidates,
        candidate.source.text = pair.entity_a ∧ candidate.target.text = pair.entity_b) ∧
      ∀ candidate ∈ candidates, ∃ pair ∈ chosen_pairs stats config,
        candidate.source.text = pair.entity_a ∧ candidate.target.text = pair.entity_b := by
  obtain ⟨pairs, hpairs, -⟩ := of_bind_eq_ok hcandidates
  have hfloats := (induce_pairs_eq_ok_iff (List.Subset.refl _)).mp hpairs
  rw [relation_candidates_eq stats config hfloats.1] at hcandidates
  refine ⟨hfloats.1, fun pair hpair => ?_, fun pair hpair => ?_, fun candidate hcandidate => ?_⟩
  · obtain ⟨candidate, -, hmade⟩ := exists_value_of_mapM hcandidates hpair
    exact (in_unit_iff_of_chosen hpair).mp (relation_of_chosen hpair hmade).1
  · obtain ⟨candidate, hcandidate, hmade⟩ := exists_value_of_mapM hcandidates hpair
    exact ⟨candidate, hcandidate, (relation_of_chosen hpair hmade).2⟩
  · obtain ⟨pair, hpair, hmade⟩ := exists_item_of_mapM hcandidates hcandidate
    exact ⟨pair, hpair, (relation_of_chosen hpair hmade).2⟩

theorem exists_relation_candidates (hfloats : Representable stats config stats.co_occurrences)
    (hbounded : Bounded stats config) :
    ∃ candidates, _induce_relation_candidates stats config = .ok candidates := by
  rw [relation_candidates_eq stats config hfloats]
  obtain ⟨candidates, hcandidates, -⟩ := @exists_mapM_eq_ok _ _ _ relation_of (fun _ _ => True)
    (chosen_pairs stats config) fun pair hpair => by
      obtain ⟨candidate, hcandidate⟩ :=
        exists_relation_of hpair ((in_unit_iff_of_chosen hpair).mpr (hbounded pair hpair))
      exact ⟨candidate, hcandidate, trivial⟩
  exact ⟨candidates, hcandidates⟩

end Relations

section Proposals

variable (characters : Characters) (hasher : Hasher)

theorem exists_proposal_id (body : Json) :
    ∃ id, stable_id "proposalId" (_compute_proposal_id hasher body) = .ok id := by
  have hdigit : ∀ d < 16, is_blank (Nat.digitChar d) = false := by decide
  have hvisible : Visible (_compute_proposal_id hasher body) := by
    intro c hc
    rw [_compute_proposal_id, String.toList_append] at hc
    rcases List.mem_append.mp hc with hfirst | hhex
    · have hall : "prop_".toList.all (fun c => !is_blank c) = true := by decide
      simpa using List.all_eq_true.mp hall c hfirst
    · rw [String.toList_ofList] at hhex
      obtain ⟨d, hd, rfl⟩ := hasher.hex _ c (List.mem_of_mem_take hhex)
      exact hdigit d hd
  have hlength : 3 ≤ (_compute_proposal_id hasher body).length ∧
      (_compute_proposal_id hasher body).length ≤ 256 := by
    have hfirst : "prop_".length = 5 := rfl
    rw [_compute_proposal_id, String.length_append, hfirst, String.length_ofList, List.length_take]
    omega
  rw [stable_id, dif_pos (by rwa [trim_of_visible hvisible])]
  exact ⟨_, rfl⟩

-- What a proposal is relied on for.
structure Sound (proposal : OntologyProposal) : Prop where
  kinds : (proposal.entity_candidates.map (fun candidate => candidate.suggested_kind.text)).Nodup
  endpoints : ∀ relation ∈ proposal.relation_candidates,
    (∃ entity ∈ proposal.entity_candidates, entity.name = relation.source) ∧
      ∃ entity ∈ proposal.entity_candidates, entity.name = relation.target

structure Proposable (stats : CorpusStats) (config : InductionConfig) : Prop where
  apart : SlugsApart ((_ranked_entities stats config).map (fun item => slug_of characters item.1))
  floats : Representable stats config stats.co_occurrences
  bounded : Bounded stats config
  ranked : ∀ pair ∈ chosen_pairs stats config,
    pair.entity_a ∈ (_ranked_entities stats config).map Prod.fst ∧
      pair.entity_b ∈ (_ranked_entities stats config).map Prod.fst

variable {characters hasher}

theorem candidates_of_propose {stats : CorpusStats} {config : InductionConfig} {now : Datetime}
    {proposal : OntologyProposal} (hproposal : propose characters hasher stats config now = .ok proposal) :
    now.utcoffset.isSome = true ∧
      _induce_entity_candidates characters stats config = .ok proposal.entity_candidates ∧
      _induce_relation_candidates stats config = .ok proposal.relation_candidates := by
  unfold propose at hproposal
  split at hproposal
  · rename_i haware
    obtain ⟨entities, hentities, hproposal⟩ := of_bind_eq_ok hproposal
    obtain ⟨relations, hrelations, hproposal⟩ := of_bind_eq_ok hproposal
    obtain ⟨id, -, hproposal⟩ := of_bind_eq_ok hproposal
    obtain ⟨method, -, hproposal⟩ := of_bind_eq_ok hproposal
    cases hproposal
    exact ⟨haware, hentities, hrelations⟩
  · cases hproposal

-- How a proposal is made.
theorem propose_eq_ok_iff {stats : CorpusStats} {config : InductionConfig} {now : Datetime}
    {entities : List EntityCandidate}
    (hentities : _induce_entity_candidates characters stats config = .ok entities) :
    (∃ proposal, propose characters hasher stats config now = .ok proposal ∧ Sound proposal) ↔
      now.utcoffset.isSome = true ∧ ∃ relations,
        _induce_relation_candidates stats config = .ok relations ∧
        (entities.map (fun candidate => candidate.suggested_kind.text)).Nodup ∧
        ∀ relation ∈ relations, (∃ entity ∈ entities, entity.name = relation.source) ∧
          ∃ entity ∈ entities, entity.name = relation.target := by
  constructor
  · rintro ⟨proposal, hproposal, hsound⟩
    obtain ⟨haware, hsame, hrelations⟩ := candidates_of_propose hproposal
    rw [hentities] at hsame
    cases hsame
    exact ⟨haware, proposal.relation_candidates, hrelations, hsound.kinds, hsound.endpoints⟩
  · rintro ⟨haware, relations, hrelations, hkinds, hendpoints⟩
    obtain ⟨id, hid⟩ := exists_proposal_id hasher (.obj
      [("corpus_id", .str stats.corpus_id.text), ("method", .str INDUCTION_METHOD),
        ("observed_document_count", .int stats.document_count),
        ("entity_candidates", .arr (entities.map EntityCandidate.dump)),
        ("relation_candidates", .arr (relations.map RelationCandidate.dump))])
    have hmethod : ∃ method, non_empty_str "method" INDUCTION_METHOD = .ok method := ⟨_, rfl⟩
    obtain ⟨method, hmethod⟩ := hmethod
    unfold propose
    rw [dif_pos haware, hentities, hrelations]
    dsimp only [bind, Except.bind]
    rw [hid]
    dsimp only
    rw [hmethod]
    exact ⟨_, rfl, ⟨hkinds, hendpoints⟩⟩

theorem exists_named_iff {entities : List EntityCandidate} {name : NonEmptyStr} :
    (∃ entity ∈ entities, entity.name = name) ↔
      name.text ∈ entities.map (fun candidate => candidate.name.text) := by
  rw [List.mem_map]
  refine exists_congr fun entity => and_congr_right fun _ => ?_
  exact ⟨fun h => h ▸ rfl, NonEmptyStr.ext⟩

variable (characters hasher)

theorem propose_sound_iff (stats : CorpusStats) (config : InductionConfig) (now : Datetime) :
    (∃ proposal, propose characters hasher stats config now = .ok proposal ∧ Sound proposal) ↔
      now.utcoffset.isSome = true ∧ Proposable characters stats config := by
  obtain ⟨entities, hentities, hnames, hkinds⟩ := exists_entity_candidates characters stats config
  rw [propose_eq_ok_iff hentities, hkinds, kinds_nodup_iff]
  refine and_congr_right fun _ => ?_
  constructor
  · rintro ⟨relations, hrelations, hapart, hendpoints⟩
    obtain ⟨hfloats, hbounded, hmade, -⟩ := relation_candidates_spec hrelations
    refine ⟨hapart, hfloats, hbounded, fun pair hpair => ?_⟩
    obtain ⟨relation, hrelation, hsource, htarget⟩ := hmade pair hpair
    obtain ⟨hfirst, hsecond⟩ := hendpoints relation hrelation
    rw [exists_named_iff, hnames, hsource] at hfirst
    rw [exists_named_iff, hnames, htarget] at hsecond
    exact ⟨hfirst, hsecond⟩
  · rintro ⟨hapart, hfloats, hbounded, hranked⟩
    obtain ⟨relations, hrelations⟩ := exists_relation_candidates hfloats hbounded
    obtain ⟨-, -, -, hfrom⟩ := relation_candidates_spec hrelations
    refine ⟨relations, hrelations, hapart, fun relation hrelation => ?_⟩
    obtain ⟨pair, hpair, hsource, htarget⟩ := hfrom relation hrelation
    obtain ⟨hfirst, hsecond⟩ := hranked pair hpair
    rw [exists_named_iff, exists_named_iff, hnames, hsource, htarget]
    exact ⟨hfirst, hsecond⟩

end Proposals

section Samples

def ascii_characters : Characters where
  lower text := String.ofList (text.toList.map Char.toLower)
  isalnum := Char.isAlphanum
  visible c halnum := by
    have hrange : 65 ≤ c.toNat ∧ c.toNat ≤ 90 ∨ 97 ≤ c.toNat ∧ c.toNat ≤ 122 ∨
        48 ≤ c.toNat ∧ c.toNat ≤ 57 := by
      simp only [Char.isAlphanum, Char.isAlpha, Char.isUpper, Char.isLower, Char.isDigit, Bool.or_eq_true,
        Bool.and_eq_true, decide_eq_true_eq, or_assoc] at halnum
      exact halnum
    simp [is_blank, Text.inRanges]
    omega

def observed_at : Datetime where
  year := 2026
  month := 1
  day := 1
  hour := 12
  minute := 0
  second := 0
  microsecond := 0
  utcoffset := some 0
  year_range := Datetime.year_2026
  month_range := Datetime.month_1
  day_range := Datetime.day_1
  time_range := Datetime.midday
  offset_range := Datetime.offset_none

def corpus : StableId where
  text := "corpus"
  trimmed := by decide +kernel
  bounded := by decide +kernel

def alpha : NonEmptyStr := ⟨"alpha", by decide +kernel, by decide⟩

def beta : NonEmptyStr := ⟨"beta", by decide +kernel, by decide⟩

-- The number of the second "alpha" makes the slug of "alpha 2".
def colliding : CorpusStats where
  corpus_id := corpus
  document_count := 4
  entity_mentions := ⟨[("alpha", 9), ("Alpha", 8), ("alpha 2", 7)], by decide⟩
  co_occurrences := []
  named := by decide +kernel
  positive name count hcount := by
    have hall : ∀ item ∈ [("alpha", 9), ("Alpha", 8), ("alpha 2", 7)], 0 < item.2 := by decide
    exact hall _ ((Dict.mem_entries_iff ..).mpr hcount)
  observed pair hpair := absurd hpair List.not_mem_nil

def paired (count mentions : ℕ) (hcount : 1 ≤ count) (hmentions : 0 < mentions) : CorpusStats where
  corpus_id := corpus
  document_count := 4
  entity_mentions := ⟨[("alpha", 9), ("beta", mentions)], by simp⟩
  co_occurrences := [⟨alpha, beta, count, hcount, by decide⟩]
  named := by
    change ∀ name ∈ ["alpha", "beta"], _
    decide +kernel
  positive name value hvalue := by
    have hitem := (Dict.mem_entries_iff ..).mpr hvalue
    simp at hitem
    omega
  observed pair hpair := by
    cases List.mem_singleton.mp hpair
    simp [Dict.keys, alpha, beta]

-- Five meetings of a name that is mentioned three times.
def crowded : CorpusStats := paired 5 3 (by decide) (by decide)

-- Both meetings of a name that is too rare to be proposed.
def unranked : CorpusStats := paired 2 2 Nat.two_pos Nat.two_pos

theorem propose_unsound :
    (¬∃ proposal, propose ascii_characters sha256 colliding default_config observed_at = .ok proposal ∧
      (proposal.entity_candidates.map (fun candidate => candidate.suggested_kind.text)).Nodup) ∧
    (¬∃ proposal, propose ascii_characters sha256 unranked default_config observed_at = .ok proposal ∧
      ∀ relation ∈ proposal.relation_candidates,
        ∃ entity ∈ proposal.entity_candidates, entity.name = relation.target) ∧
    propose ascii_characters sha256 crowded default_config observed_at =
      .error (.validation_error "affinity") := by
  have hkinds : (_induce_entity_candidates ascii_characters colliding default_config).map
      (List.map (fun candidate => candidate.suggested_kind.text)) = .ok ["alpha", "alpha_2", "alpha_2"] := by
    decide +kernel
  have hnames : (_induce_entity_candidates ascii_characters unranked default_config).map
      (List.map (fun candidate => candidate.name)) = .ok [alpha] := by decide +kernel
  have htargets : (_induce_relation_candidates unranked default_config).map
      (List.map (fun candidate => candidate.target)) = .ok [beta] := by decide +kernel
  have hcrowded : _induce_relation_candidates crowded default_config =
      .error (.validation_error "affinity") := by decide +kernel
  refine ⟨?_, ?_, ?_⟩
  · rintro ⟨proposal, hproposal, hnodup⟩
    obtain ⟨-, hentities, -⟩ := candidates_of_propose hproposal
    rw [hentities] at hkinds
    rw [Except.ok.inj hkinds] at hnodup
    exact absurd hnodup (by decide)
  · rintro ⟨proposal, hproposal, hendpoints⟩
    obtain ⟨-, hentities, hrelations⟩ := candidates_of_propose hproposal
    rw [hentities] at hnames
    rw [hrelations] at htargets
    obtain ⟨relation, hrelation, htarget⟩ := List.mem_map.mp
      (Except.ok.inj htargets ▸ List.mem_singleton_self beta)
    obtain ⟨entity, hentity, hname⟩ := hendpoints relation hrelation
    have hmem := List.mem_map_of_mem (f := fun candidate : EntityCandidate => candidate.name) hentity
    rw [Except.ok.inj hnames, List.mem_singleton, hname, htarget] at hmem
    exact absurd hmem (by decide)
  · obtain ⟨entities, hentities, -⟩ := exists_entity_candidates ascii_characters crowded default_config
    have haware : observed_at.utcoffset.isSome = true := rfl
    rw [propose, dif_pos haware, hentities, hcrowded]
    rfl

end Samples

end KnowledgeCompiler.Ontology
