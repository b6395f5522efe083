import KnowledgeCompiler.Parallel.Planning
import Mathlib.Algebra.Order.BigOperators.Group.List

namespace KnowledgeCompiler.Parallel

open Lib Method

namespace PlanFields

theorem valid_of {fields : PlanFields} (hsource : is_sha256 fields.source_sha256 = true)
    (hshards : fields.shards ≠ []) (howned : fields.owned_page_ids.Nodup)
    (hdisjoint : ∀ shard ∈ fields.shards, ∀ page_id ∈ shard.primary_page_ids,
      page_id ∉ shard.context_page_ids) : fields.post_init = .ok () := by
  have hsource : require_sha256 fields.source_sha256 "source_sha256" = .ok () :=
    refuse_if_ok (by simp [hsource])
  have hdisjoint : ¬∃ shard ∈ fields.shards, ∃ page_id ∈ shard.primary_page_ids,
      page_id ∈ shard.context_page_ids := by
    rintro ⟨shard, hshard, page_id, hown, hcontext⟩
    exact hdisjoint shard hshard page_id hown hcontext
  simp only [post_init, hsource, refuse_if_ok hshards, refuse_if_ok (not_not.mpr howned),
    refuse_if_ok hdisjoint]
  rfl

theorem source_of_valid {fields : PlanFields} (hvalid : fields.post_init = .ok ()) :
    is_sha256 fields.source_sha256 = true := by
  by_contra hnot
  have hrefused : require_sha256 fields.source_sha256 "source_sha256" =
      .error "source_sha256 must be a lowercase 64-character sha256" :=
    if_pos (Bool.not_eq_true _ ▸ hnot)
  simp only [post_init, hrefused] at hvalid
  cases hvalid

end PlanFields

namespace DeterministicShardPlanner

variable {predictor : AdaptiveShardPredictor} {budget : ℕ}

-- What the planner's own validation leaves.
structure Ordered (pages : List PageDescriptor) : Prop where
  nonempty : pages ≠ []
  increasing : pages.Pairwise (fun first second => first.index0 < second.index0)
  distinct : (pages.map PageDescriptor.page_id).Nodup

theorem ordered_of_valid {pages : List PageDescriptor} (hvalid : validate_pages pages = .ok ()) :
    Ordered pages := by
  obtain ⟨_, hnonempty, hrest⟩ := of_bind_eq_ok hvalid
  obtain ⟨_, hsorted, hrest⟩ := of_bind_eq_ok hrest
  obtain ⟨_, hids, hrest⟩ := of_bind_eq_ok hrest
  obtain ⟨_, hindexes, _⟩ := of_bind_eq_ok hrest
  have hnot {holds : Prop} [Decidable holds] {error : ShardFault}
      (hok : refuse_if holds error = .ok ()) : ¬holds := by
    intro hholds
    rw [refuse_if, if_pos hholds] at hok
    cases hok
  constructor
  · intro hempty
    exact hnot hnonempty (by rw [hempty]; rfl)
  · have hle : pages.Pairwise (fun first second => first.index0 ≤ second.index0) := by
      rw [← not_not.mp (hnot hsorted)]
      exact List.pairwise_insertionSort _ _
    have hne := List.pairwise_map.mp (not_not.mp (hnot hindexes))
    exact (hle.and hne).imp (fun hboth => lt_of_le_of_ne hboth.1 hboth.2)
  · exact not_not.mp (hnot hids)

theorem index_of_page {pages : List PageDescriptor} (hordered : Ordered pages) {page : PageDescriptor}
    (hpage : page ∈ pages) : index_of pages page.page_id = page.index0 := by
  have hkeys : ((pages.map fun page => (page.page_id, page)).map Prod.fst).Nodup := by
    rw [List.map_map]
    exact hordered.distinct
  have hget : (Dict.ofPairs (pages.map fun page => (page.page_id, page))).get? page.page_id =
      some page := by
    rw [← Dict.mem_entries_iff, Dict.entries_ofPairs _ hkeys]
    exact List.mem_map_of_mem hpage
  rw [index_of, hget, Option.elim_some]

theorem context_sorted {pages : List PageDescriptor} (hordered : Ordered pages)
    (holds : PageDescriptor → Bool) :
    ((pages.filter holds).map PageDescriptor.page_id).insertionSort
        (fun first second => index_of pages first ≤ index_of pages second) =
      (pages.filter holds).map PageDescriptor.page_id := by
  apply List.Pairwise.insertionSort_eq
  rw [List.pairwise_map]
  have hfiltered := hordered.increasing.filter holds
  apply List.Pairwise.imp_of_mem _ hfiltered
  intro first second hfirst hsecond hlt
  rw [index_of_page hordered (List.mem_of_mem_filter hfirst),
    index_of_page hordered (List.mem_of_mem_filter hsecond)]
  exact hlt.le

theorem make_shard {fields : ShardFields} (hvalid : fields.post_init = .ok ()) :
    ParseShard.make fields = .ok { toShardFields := fields, valid := hvalid } := by
  unfold ParseShard.make
  split
  · rename_i refused hrefused
    rw [hvalid] at hrefused
    cases hrefused
  · rfl

-- What a shard says of the group it is made from.
structure MadeFrom (predictor : AdaptiveShardPredictor) (budget : ℕ) (pages group : List PageDescriptor)
    (shard : ParseShard) : Prop where
  owned : shard.primary_page_ids = group.map PageDescriptor.page_id
  flagged : shard.required_worker_class =
    shard_worker_class (group.map AdaptiveShardPredictor.worker_class)
      (decide (budget < (group.map PageDescriptor.tokens).sum))
  neighbours : ∃ first ∈ group.head?, ∃ last ∈ group.getLast?,
    shard.context_page_ids = (pages.filter (is_context first.index0 last.index0
      ((group.map AdaptiveShardPredictor.overlap).foldl max 0))).map PageDescriptor.page_id

variable (hasher : Hasher)

theorem exists_plan_shard (document_id document_version_id source_sha256 : String)
    (hbudget : predictor.token_budget = .ok budget) {pages group : List PageDescriptor}
    (hordered : Ordered pages) (hrange : ∀ page ∈ pages, predictor.Representable page) (ordinal : ℕ)
    (hgroup : group ≠ []) (hin : group ⊆ pages) :
    ∃ shard, plan_shard hasher predictor document_id document_version_id source_sha256 pages ordinal
        group = .ok shard ∧ MadeFrom predictor budget pages group shard := by
  obtain ⟨sizings, hsizings, hsized⟩ := AdaptiveShardPredictor.exists_sizings hbudget
    (fun page hpage => hrange page (hin hpage))
  obtain ⟨most, hextreme, hfold⟩ := exists_extreme max "max"
    (mt List.map_eq_nil_iff.mp hgroup : group.map AdaptiveShardPredictor.overlap ≠ [])
  have hmost : (group.map AdaptiveShardPredictor.overlap).foldl max 0 = most := by
    rw [hfold, Nat.zero_max]
  have hends : ends group = .ok ((group.head hgroup).index0, (group.getLast hgroup).index0) := by
    simp only [ends, List.head?_eq_some_head hgroup, List.getLast?_eq_some_getLast hgroup]
  have hids : group.map PageDescriptor.page_id ⊆ pages.map PageDescriptor.page_id :=
    List.map_subset _ hin
  have hcontext (holds : PageDescriptor → Bool) :
      (pages.filter holds).map PageDescriptor.page_id ⊆ pages.map PageDescriptor.page_id :=
    List.map_subset _ List.filter_sublist.subset
  simp only [plan_shard, hends, hsizings, hsized.overlaps, hsized.classes, hextreme, hbudget, bind,
    Except.bind, context_sorted hordered]
  rw [make_shard]
  · refine ⟨_, rfl, rfl, rfl, group.head hgroup, List.head?_eq_some_head hgroup, group.getLast hgroup,
      List.getLast?_eq_some_getLast hgroup, ?_⟩
    rw [hmost]
  · apply refuse_if_ok
    rw [not_or, not_not, not_not]
    have hcover : ((pages.map PageDescriptor.page_id).filter fun page_id =>
        page_id ∈ group.map PageDescriptor.page_id ||
          page_id ∈ (pages.filter (is_context (group.head hgroup).index0
            (group.getLast hgroup).index0 most)).map PageDescriptor.page_id).toFinset =
        (group.map PageDescriptor.page_id).toFinset ∪
          ((pages.filter (is_context (group.head hgroup).index0 (group.getLast hgroup).index0
            most)).map PageDescriptor.page_id).toFinset := by
      ext page_id
      rw [List.mem_toFinset, List.mem_filter, Bool.or_eq_true, decide_eq_true_iff,
        decide_eq_true_iff, Finset.mem_union, List.mem_toFinset, List.mem_toFinset]
      exact ⟨fun hboth => hboth.2, fun heither =>
        ⟨heither.elim (fun hown => hids hown) (fun hnear => hcontext _ hnear), heither⟩⟩
    refine ⟨hcover, ?_⟩
    rw [← hcover, List.toFinset_card_of_nodup (hordered.distinct.filter _)]

theorem owned_of_made {pages : List PageDescriptor} {groups : List (List PageDescriptor)}
    {shards : List ParseShard}
    (hmade : List.Forall₂ (MadeFrom predictor budget pages) groups shards) :
    shards.flatMap (fun shard => shard.primary_page_ids) =
      groups.flatten.map PageDescriptor.page_id := by
  induction hmade with
  | nil => rfl
  | cons hshard _ ih =>
    rw [List.flatMap_cons, List.flatten_cons, List.map_append, ih, hshard.owned]

theorem exists_made_from {pages : List PageDescriptor} {groups : List (List PageDescriptor)}
    {shards : List ParseShard} (hmade : List.Forall₂ (MadeFrom predictor budget pages) groups shards)
    {shard : ParseShard} (hshard : shard ∈ shards) :
    ∃ group ∈ groups, MadeFrom predictor budget pages group shard := by
  induction hmade with
  | nil => cases hshard
  | @cons group first groups rest hfirst _ ih =>
    cases List.mem_cons.mp hshard with
    | inl heq => exact ⟨group, List.mem_cons_self, heq ▸ hfirst⟩
    | inr hrest =>
      obtain ⟨other, hother, hfrom⟩ := ih hrest
      exact ⟨other, List.mem_cons_of_mem _ hother, hfrom⟩

theorem is_context_iff {first_index last_index overlap : ℕ} {page : PageDescriptor}
    (hle : first_index ≤ last_index) :
    is_context first_index last_index overlap page = true ↔
      first_index ≤ page.index0 + overlap ∧ page.index0 < first_index ∨
        last_index < page.index0 ∧ page.index0 ≤ last_index + overlap := by
  simp only [is_context, Bool.and_eq_true, Bool.not_eq_true', Bool.and_eq_false_iff,
    decide_eq_false_iff_not, Bool.or_eq_true, decide_eq_true_iff]
  omega

theorem Ordered.sublist {pages group : List PageDescriptor} (hordered : Ordered pages)
    (hsublist : group.Sublist pages) {first last page : PageDescriptor}
    (hfirst : first ∈ group.head?) (hlast : last ∈ group.getLast?) (hpage : page ∈ group) :
    first.index0 ≤ page.index0 ∧ page.index0 ≤ last.index0 := by
  have hincreasing := hordered.increasing.sublist hsublist
  constructor
  · cases group with
    | nil => cases hpage
    | cons head rest =>
      obtain rfl := Option.some.inj hfirst
      cases List.mem_cons.mp hpage with
      | inl heq => exact heq ▸ le_rfl
      | inr hrest => exact ((List.pairwise_cons.mp hincreasing).1 page hrest).le
  · obtain ⟨before, rfl⟩ := List.getLast?_eq_some_iff.mp hlast
    cases List.mem_append.mp hpage with
    | inl hbefore =>
      exact ((List.pairwise_append.mp hincreasing).2.2 page hbefore last
        (List.mem_singleton_self _)).le
    | inr hend => exact (List.mem_singleton.mp hend) ▸ le_rfl

-- A shard's context lies outside of what it owns.
theorem disjoint_of_made {pages group : List PageDescriptor} {shard : ParseShard}
    (hordered : Ordered pages) (hsublist : group.Sublist pages)
    (hmade : MadeFrom predictor budget pages group shard) {page_id : String}
    (howned : page_id ∈ shard.primary_page_ids) : page_id ∉ shard.context_page_ids := by
  obtain ⟨first, hfirst, last, hlast, hcontext⟩ := hmade.neighbours
  rw [hmade.owned] at howned
  rw [hcontext]
  intro hnear
  obtain ⟨page, hpage, rfl⟩ := List.mem_map.mp howned
  obtain ⟨other, hother, hid⟩ := List.mem_map.mp hnear
  obtain ⟨hin, hholds⟩ := List.mem_filter.mp hother
  obtain rfl := List.inj_on_of_nodup_map hordered.distinct hin (hsublist.subset hpage) hid
  have hbounds := hordered.sublist hsublist hfirst hlast hpage
  have hwithin := (is_context_iff (hbounds.1.trans hbounds.2)).mp hholds
  omega

theorem make_plan {fields : PlanFields} (hvalid : fields.post_init = .ok ()) :
    ShardPlan.make fields = .ok { toPlanFields := fields, valid := hvalid } := by
  unfold ShardPlan.make
  split
  · rename_i refused hrefused
    rw [hvalid] at hrefused
    cases hrefused
  · rfl

theorem exists_plan (document_id document_version_id : String) {source_sha256 : String}
    (hsource : is_sha256 source_sha256 = true) (hbudget : predictor.token_budget = .ok budget)
    {pages : List PageDescriptor} (hvalid : validate_pages pages = .ok ())
    (hrange : ∀ page ∈ pages, predictor.Representable page) :
    ∃ made, ∃ bundles : List (List (List PageDescriptor)),
      plan hasher predictor document_id document_version_id source_sha256 pages = .ok made ∧
      bundles.flatten = atomic_groups pages ∧
      (∀ bundle ∈ bundles, bundle ≠ [] ∧
        (1 < bundle.length → bundle.flatten.length ≤ limit predictor budget bundle.flatten)) ∧
      List.Forall₂ (MadeFrom predictor budget pages) (bundles.map List.flatten) made.shards := by
  have hordered := ordered_of_valid hvalid
  obtain ⟨bundles, hflatten, hgroups, hbundles⟩ := exists_bundles hbudget hrange
  have hall : (bundles.map List.flatten).flatten = pages := by
    rw [← List.flatten_flatten, hflatten, flatten_atomic_groups]
  have hnonempty : ∀ group ∈ bundles.map List.flatten, group ≠ [] := by
    intro group hgroup hempty
    obtain ⟨bundle, hbundle, rfl⟩ := List.mem_map.mp hgroup
    obtain ⟨first, hfirst⟩ := List.exists_mem_of_ne_nil bundle (hbundles bundle hbundle).1
    have hatomic : first ∈ atomic_groups pages :=
      hflatten ▸ List.mem_flatten_of_mem hbundle hfirst
    exact ne_nil_of_mem_atomic_groups hatomic (List.flatten_eq_nil_iff.mp hempty first hfirst)
  obtain ⟨groups, hmap⟩ : ∃ groups, bundles.map List.flatten = groups := ⟨_, rfl⟩
  rw [hmap] at hgroups hall hnonempty
  have hshard : ∀ entry ∈ groups.zipIdx, ∃ shard,
      plan_shard hasher predictor document_id document_version_id source_sha256 pages entry.2
        entry.1 = .ok shard ∧ MadeFrom predictor budget pages entry.1 shard := by
    rintro ⟨group, ordinal⟩ hentry
    have hgroup := List.fst_mem_of_mem_zipIdx hentry
    exact exists_plan_shard hasher _ _ _ hbudget hordered hrange ordinal (hnonempty group hgroup)
      (hall ▸ (List.sublist_flatten_of_mem hgroup).subset)
  obtain ⟨shards, hshards, hindexed⟩ := exists_mapM_eq_ok hshard
  have hmade : List.Forall₂ (MadeFrom predictor budget pages) groups shards := by
    rw [← List.zipIdx_map_fst 0 groups, List.forall₂_map_left_iff]
    exact hindexed
  simp only [plan, hvalid, hgroups, hshards, bind, Except.bind]
  rw [make_plan]
  · exact ⟨_, bundles, rfl, hflatten, hbundles, hmap ▸ hmade⟩
  · apply PlanFields.valid_of hsource
    · intro hempty
      have hnone : shards = [] := hempty
      rw [hnone, List.forall₂_nil_right_iff] at hmade
      rw [hmade, List.flatten_nil] at hall
      exact hordered.nonempty hall.symm
    · rw [PlanFields.owned_page_ids, owned_of_made hmade, hall]
      exact hordered.distinct
    · intro shard hshard page_id hown
      obtain ⟨group, hgroup, hfrom⟩ := exists_made_from hmade hshard
      exact disjoint_of_made hordered (hall ▸ List.sublist_flatten_of_mem hgroup) hfrom hown

theorem length_le_flatten {bundle : List (List PageDescriptor)}
    (hgroups : ∀ group ∈ bundle, group ≠ []) : bundle.length ≤ bundle.flatten.length := by
  induction bundle with
  | nil => exact Nat.zero_le _
  | cons group bundle ih =>
    obtain ⟨hgroup, hrest⟩ := List.forall_mem_cons.mp hgroups
    have hpos := List.length_pos_iff.mpr hgroup
    have hle := ih hrest
    simp only [List.flatten_cons, List.length_append, List.length_cons]
    omega

-- Pages that fit a shard by count fit it by their tokens.
theorem tokens_le_of_limit {group : List PageDescriptor} (hcount : 2 ≤ group.length)
    (hlimit : group.length ≤ limit predictor budget group) :
    (group.map PageDescriptor.tokens).sum ≤ budget := by
  have hshare : ∀ tokens ∈ group.map PageDescriptor.tokens, tokens ≤ budget / group.length := by
    intro tokens htokens
    obtain ⟨page, hpage, rfl⟩ := List.mem_map.mp htokens
    rw [Nat.le_div_iff_mul_le (by omega)]
    exact AdaptiveShardPredictor.tokens_mul_le hcount (hlimit.trans (limit_le hpage))
  have hsum := List.sum_le_card_nsmul _ _ hshare
  rw [List.length_map, nsmul_eq_mul, Nat.cast_id] at hsum
  exact hsum.trans (Nat.mul_div_le _ _)

-- The widest overlap that a page of the group asks for.
def IsOverlap (group : List PageDescriptor) (overlap : ℕ) : Prop :=
  (∃ page ∈ group, overlap = AdaptiveShardPredictor.overlap page) ∧
    ∀ page ∈ group, AdaptiveShardPredictor.overlap page ≤ overlap

theorem foldl_max_spec (start : ℕ) (values : List ℕ) :
    start ≤ values.foldl max start ∧ (∀ value ∈ values, value ≤ values.foldl max start) ∧
      (values.foldl max start = start ∨ values.foldl max start ∈ values) := by
  induction values generalizing start with
  | nil => simp
  | cons first rest ih =>
    rw [List.foldl_cons]
    obtain ⟨hstart, hrest, hfound⟩ := ih (max start first)
    refine ⟨(le_max_left _ _).trans hstart, List.forall_mem_cons.mpr ⟨?_, hrest⟩, ?_⟩
    · exact (le_max_right _ _).trans hstart
    · cases hfound with
      | inl hkept =>
        rw [hkept]
        cases max_choice start first with
        | inl hleft => exact Or.inl hleft
        | inr hright => exact Or.inr (List.mem_cons.mpr (Or.inl hright))
      | inr hin => exact Or.inr (List.mem_cons_of_mem _ hin)

theorem isOverlap_foldl {group : List PageDescriptor} {page : PageDescriptor} (hpage : page ∈ group) :
    IsOverlap group ((group.map AdaptiveShardPredictor.overlap).foldl max 0) := by
  obtain ⟨-, hle, hfound⟩ := foldl_max_spec 0 (group.map AdaptiveShardPredictor.overlap)
  have hpages : ∀ other ∈ group, AdaptiveShardPredictor.overlap other ≤
      (group.map AdaptiveShardPredictor.overlap).foldl max 0 :=
    fun other hother => hle _ (List.mem_map_of_mem hother)
  refine ⟨?_, hpages⟩
  cases hfound with
  | inl hzero =>
    have hpos : 0 < AdaptiveShardPredictor.overlap page := by
      unfold AdaptiveShardPredictor.overlap
      split <;> decide
    have hleast := hpages page hpage
    omega
  | inr hin =>
    obtain ⟨other, hother, heq⟩ := List.mem_map.mp hin
    exact ⟨other, hother, heq.symm⟩

-- What a shard of whole atomic groups promises.
structure Sharded (predictor : AdaptiveShardPredictor) (pages : List PageDescriptor)
    (bundle : List (List PageDescriptor)) (shard : ParseShard) : Prop where
  filled : bundle ≠ []
  owned : shard.primary_page_ids = bundle.flatten.map PageDescriptor.page_id
  counted : 1 < bundle.length → ∀ page ∈ bundle.flatten, ∀ sizing,
    predictor.predict page = .ok sizing → bundle.flatten.length ≤ sizing.pages_per_shard
  measured : 1 < bundle.length → ∀ budget, predictor.token_budget = .ok budget →
    (bundle.flatten.map PageDescriptor.tokens).sum ≤ budget
  flagged : ∀ budget, predictor.token_budget = .ok budget →
    budget < (bundle.flatten.map PageDescriptor.tokens).sum →
      shard.required_worker_class = "large_context_precision"
  neighbours : ∃ first ∈ bundle.flatten.head?, ∃ last ∈ bundle.flatten.getLast?, ∃ overlap,
    IsOverlap bundle.flatten overlap ∧
    ∀ page_id, page_id ∈ shard.context_page_ids ↔ ∃ page ∈ pages, page.page_id = page_id ∧
      (first.index0 ≤ page.index0 + overlap ∧ page.index0 < first.index0 ∨
        last.index0 < page.index0 ∧ page.index0 ≤ last.index0 + overlap)

theorem sharded_of_made (hbudget : predictor.token_budget = .ok budget) {pages : List PageDescriptor}
    (hordered : Ordered pages) {bundle : List (List PageDescriptor)} {shard : ParseShard}
    (hgroups : ∀ group ∈ bundle, group ≠ []) (hsublist : bundle.flatten.Sublist pages)
    (hbundle : bundle ≠ [] ∧
      (1 < bundle.length → bundle.flatten.length ≤ limit predictor budget bundle.flatten))
    (hmade : MadeFrom predictor budget pages bundle.flatten shard) :
    Sharded predictor pages bundle shard := by
  have hsame {other : ℕ} (hother : predictor.token_budget = .ok other) : other = budget :=
    Except.ok.inj (hother.symm.trans hbudget)
  constructor
  · exact hbundle.1
  · exact hmade.owned
  · intro hlong page hpage sizing hpredict
    obtain ⟨-, other, hother, htarget, -⟩ := AdaptiveShardPredictor.of_predict hpredict
    rw [htarget, hsame hother]
    exact (hbundle.2 hlong).trans (limit_le hpage)
  · intro hlong other hother
    rw [hsame hother]
    exact tokens_le_of_limit (hlong.trans_le (length_le_flatten hgroups)) (hbundle.2 hlong)
  · intro other hother hover
    rw [hmade.flagged, shard_worker_class, if_pos]
    rw [hsame hother] at hover
    exact Or.inr (decide_eq_true hover)
  · obtain ⟨first, hfirst, last, hlast, hcontext⟩ := hmade.neighbours
    refine ⟨first, hfirst, last, hlast, _, isOverlap_foldl (List.mem_of_mem_head? hfirst), ?_⟩
    intro page_id
    have hle := (hordered.sublist hsublist hfirst hlast (List.mem_of_mem_head? hfirst))
    rw [hcontext, List.mem_map]
    simp only [List.mem_filter, is_context_iff (hle.1.trans hle.2)]
    constructor
    · rintro ⟨page, ⟨hpage, hnear⟩, hid⟩
      exact ⟨page, hpage, hid, hnear⟩
    · rintro ⟨page, hpage, hid, hnear⟩
      exact ⟨page, ⟨hpage, hnear⟩, hid⟩

theorem forall₂_sharded (hbudget : predictor.token_budget = .ok budget) {pages : List PageDescriptor}
    (hordered : Ordered pages) {bundles : List (List (List PageDescriptor))} {shards : List ParseShard}
    (hgroups : ∀ bundle ∈ bundles, ∀ group ∈ bundle, group ≠ [])
    (hsublist : ∀ bundle ∈ bundles, bundle.flatten.Sublist pages)
    (hbundles : ∀ bundle ∈ bundles, bundle ≠ [] ∧
      (1 < bundle.length → bundle.flatten.length ≤ limit predictor budget bundle.flatten))
    (hmade : List.Forall₂ (MadeFrom predictor budget pages) (bundles.map List.flatten) shards) :
    List.Forall₂ (Sharded predictor pages) bundles shards := by
  rw [List.forall₂_map_left_iff] at hmade
  induction hmade with
  | nil => exact List.Forall₂.nil
  | cons hshard _ ih =>
    obtain ⟨hgroup, hgroups⟩ := List.forall_mem_cons.mp hgroups
    obtain ⟨hsub, hsublist⟩ := List.forall_mem_cons.mp hsublist
    obtain ⟨hbundle, hbundles⟩ := List.forall_mem_cons.mp hbundles
    exact List.Forall₂.cons (sharded_of_made hbudget hordered hgroup hsub hbundle hshard)
      (ih hgroups hsublist hbundles)

-- What a plan promises of the document's pages.
structure Planned (predictor : AdaptiveShardPredictor) (pages : List PageDescriptor)
    (made : ShardPlan) : Prop where
  partition : made.owned_page_ids = pages.map PageDescriptor.page_id
  sharded : ∃ bundles : List (List (List PageDescriptor)), bundles.flatten = atomic_groups pages ∧
    List.Forall₂ (Sharded predictor pages) bundles made.shards
  continuity : ∀ before page next after, pages = before ++ page :: next :: after →
    page.continuity_to_next ≠ ∅ → ∃ shard ∈ made.shards,
      page.page_id ∈ shard.primary_page_ids ∧ next.page_id ∈ shard.primary_page_ids

theorem exists_shard_of_group {pages : List PageDescriptor}
    {bundles : List (List (List PageDescriptor))} {shards : List ParseShard}
    (hsharded : List.Forall₂ (Sharded predictor pages) bundles shards) {group : List PageDescriptor}
    (hgroup : group ∈ bundles.flatten) :
    ∃ shard ∈ shards, ∀ page ∈ group, page.page_id ∈ shard.primary_page_ids := by
  induction hsharded with
  | nil => cases hgroup
  | @cons bundle shard bundles shards hshard _ ih =>
    rw [List.flatten_cons, List.mem_append] at hgroup
    cases hgroup with
    | inl hhere =>
      refine ⟨shard, List.mem_cons_self, fun page hpage => ?_⟩
      rw [hshard.owned]
      exact List.mem_map_of_mem (List.mem_flatten_of_mem hhere hpage)
    | inr hlater =>
      obtain ⟨other, hother, hpages⟩ := ih hlater
      exact ⟨other, List.mem_cons_of_mem _ hother, hpages⟩

theorem plan_partitions (document_id document_version_id source_sha256 : String)
    (pages : List PageDescriptor) (hvalid : validate_pages pages = .ok ()) :
    ((∃ made, plan hasher predictor document_id document_version_id source_sha256 pages = .ok made) ↔
      is_sha256 source_sha256 = true ∧ ∀ page ∈ pages, predictor.Representable page) ∧
    ∀ made, plan hasher predictor document_id document_version_id source_sha256 pages = .ok made →
      Planned predictor pages made := by
  have hordered := ordered_of_valid hvalid
  have hneeds {made : ShardPlan} (hmade : plan hasher predictor document_id document_version_id
      source_sha256 pages = .ok made) :
      is_sha256 source_sha256 = true ∧ ∀ page ∈ pages, predictor.Representable page := by
    obtain ⟨_, _, hrest⟩ := of_bind_eq_ok hmade
    obtain ⟨groups, hgroups, hrest⟩ := of_bind_eq_ok hrest
    obtain ⟨shards, _, hmake⟩ := of_bind_eq_ok hrest
    refine ⟨?_, representable_of_primary_groups hgroups⟩
    unfold ShardPlan.make at hmake
    split at hmake
    · cases hmake
    · rename_i hpost
      exact PlanFields.source_of_valid hpost
  have hgives (hsource : is_sha256 source_sha256 = true)
      (hrange : ∀ page ∈ pages, predictor.Representable page) :
      ∃ made, plan hasher predictor document_id document_version_id source_sha256 pages = .ok made ∧
        Planned predictor pages made := by
    obtain ⟨page, hpage⟩ := List.exists_mem_of_ne_nil pages hordered.nonempty
    obtain ⟨budget, hbudget⟩ :=
      AdaptiveShardPredictor.token_budget_ok_iff.mpr (hrange page hpage).context
    obtain ⟨made, bundles, hplan, hflatten, hbundles, hmade⟩ := exists_plan hasher document_id
      document_version_id hsource hbudget hvalid hrange
    have hall : (bundles.map List.flatten).flatten = pages := by
      rw [← List.flatten_flatten, hflatten, flatten_atomic_groups]
    have hsharded : List.Forall₂ (Sharded predictor pages) bundles made.shards := by
      apply forall₂_sharded hbudget hordered _ _ hbundles hmade
      · intro bundle hbundle group hgroup
        exact ne_nil_of_mem_atomic_groups (hflatten ▸ List.mem_flatten_of_mem hbundle hgroup)
      · intro bundle hbundle
        have hsub := List.sublist_flatten_of_mem (List.mem_map_of_mem (f := List.flatten) hbundle)
        rwa [hall] at hsub
    refine ⟨made, hplan, ?_, ⟨bundles, hflatten, hsharded⟩, ?_⟩
    · rw [PlanFields.owned_page_ids, owned_of_made hmade, hall]
    · intro before page next after hpages hcontinues
      have hjoined : page.continues = true := decide_eq_true hcontinues
      obtain ⟨group, hgroup, hpage, hnext⟩ := Packing.cut_keeps_joined PageDescriptor.continues hjoined
      rw [← hpages, ← atomic_groups_eq, ← hflatten] at hgroup
      obtain ⟨shard, hshard, hown⟩ := exists_shard_of_group hsharded hgroup
      exact ⟨shard, hshard, hown page hpage, hown next hnext⟩
  constructor
  · constructor
    · rintro ⟨made, hmade⟩
      exact hneeds hmade
    · rintro ⟨hsource, hrange⟩
      obtain ⟨made, hmade, _⟩ := hgives hsource hrange
      exact ⟨made, hmade⟩
  · intro made hmade
    obtain ⟨hsource, hrange⟩ := hneeds hmade
    obtain ⟨other, hother, hplanned⟩ := hgives hsource hrange
    obtain rfl := Except.ok.inj (hmade.symm.trans hother)
    exact hplanned

section Formulas

-- Four pages of formulas under a repeated table header, as one continuity group.
def formula_page (index0 : ℕ) : PageDescriptor where
  page_id := "p" ++ toString (index0 + 1)
  index0 := index0
  page_class := .FORMULA_HEAVY
  width_px := 1200
  height_px := 1600
  token_estimate := 800
  expected_output_tokens := 500
  table_density := literal 0.1
  continuity_to_next := if index0 < 3 then {.REPEATED_TABLE_HEADER} else ∅
  named := by rw [String.length_append]; exact Nat.le_add_right 1 _
  sized := by decide
  dense := by decide +kernel
  latency_nonnegative := by decide +kernel

def formula_pages : List PageDescriptor := (List.range 4).map formula_page

def formula_source : String := String.ofList (List.replicate 64 'a')

theorem formula_pages_checked : validate_pages formula_pages = .ok () ∧
    formula_pages.all (fun page =>
      (Binary64.ofNat? ({} : AdaptiveShardPredictor).model_context_tokens).isSome &&
        (Binary64.quotient? (max 1 page.tokens) 1200).isSome &&
          (Binary64.quotient? page.pixels 8000000).isSome) = true := by
  decide +kernel

theorem formula_pages_representable :
    ∀ page ∈ formula_pages, AdaptiveShardPredictor.Representable {} page := by
  intro page hpage
  have hthree := List.all_eq_true.mp formula_pages_checked.2 page hpage
  rw [Bool.and_eq_true, Bool.and_eq_true] at hthree
  exact ⟨hthree.1.1, hthree.1.2, hthree.2⟩

theorem formula_pages_planned :
    ∃ made, plan sha256 {} "doc-1" "docv-1" formula_source formula_pages = .ok made ∧
      Planned {} formula_pages made := by
  have hplan := @plan_partitions {} sha256 "doc-1" "docv-1" formula_source formula_pages
    formula_pages_checked.1
  obtain ⟨made, hmade⟩ := hplan.1.mpr ⟨by decide, formula_pages_representable⟩
  exact ⟨made, hmade, hplan.2 made hmade⟩

-- The group is over the limit of every page, and the shard is not flagged.
theorem crowded_shard_unflagged :
    validate_pages formula_pages = .ok () ∧
    ∃ made, plan sha256 {} "doc-1" "docv-1" formula_source formula_pages = .ok made ∧
      ∃ shard ∈ made.shards, shard.primary_page_ids = formula_pages.map PageDescriptor.page_id ∧
        (∀ page ∈ formula_pages, ∃ sizing, AdaptiveShardPredictor.predict {} page = .ok sizing ∧
          sizing.pages_per_shard < shard.primary_page_ids.length) ∧
        shard.required_worker_class = "vision_precision" := by
  refine ⟨formula_pages_checked.1, ?_⟩
  have hplan : (plan sha256 {} "doc-1" "docv-1" formula_source formula_pages).toOption.map
      (fun made => made.shards.map fun shard =>
        (shard.primary_page_ids, shard.required_worker_class)) =
      some [(formula_pages.map PageDescriptor.page_id, "vision_precision")] := by decide +kernel
  have hsizes : formula_pages.all (fun page =>
      (AdaptiveShardPredictor.predict {} page).toOption.any fun sizing =>
        sizing.pages_per_shard < 4) = true := by decide +kernel
  obtain ⟨made, hmade, hshards⟩ := Option.map_eq_some_iff.mp hplan
  obtain ⟨shard, hshard, hfields⟩ : ∃ shard, made.shards = [shard] ∧
      (shard.primary_page_ids, shard.required_worker_class) =
        (formula_pages.map PageDescriptor.page_id, "vision_precision") :=
    List.map_eq_singleton_iff.mp hshards
  obtain ⟨howned, hclass⟩ := Prod.mk.inj hfields
  refine ⟨made, eq_ok_of_toOption hmade, shard, by rw [hshard]; exact List.mem_cons_self, howned, ?_, hclass⟩
  intro page hpage
  obtain ⟨sizing, hsizing, hsize⟩ := (Option.any_eq_true _ _).mp (List.all_eq_true.mp hsizes page hpage)
  exact ⟨sizing, eq_ok_of_toOption hsizing, howned ▸ of_decide_eq_true hsize⟩

end Formulas

end DeterministicShardPlanner

end KnowledgeCompiler.Parallel
