import KnowledgeCompiler.Lib.Method
import KnowledgeCompiler.Lib.Packing
import KnowledgeCompiler.Parallel.Sharding

namespace KnowledgeCompiler.Parallel

open Lib Method

namespace AdaptiveShardPredictor

variable {predictor : AdaptiveShardPredictor} {page : PageDescriptor} {budget : ℕ}

theorem base_target_pos (page_class : PageClass) : 1 ≤ base_target page_class := by
  cases page_class <;> decide

theorem halved_pos (target : ℕ) : 1 ≤ halved target := le_max_left _ _

theorem halved_le {target : ℕ} (hpos : 1 ≤ target) : halved target ≤ target :=
  max_le hpos (Nat.div_le_self _ _)

-- However it is halved, a target stays between one and what the context holds.
theorem target_of_bounds (predictor : AdaptiveShardPredictor) (page : PageDescriptor) (budget : ℕ) :
    1 ≤ predictor.target_of page budget ∧
      predictor.target_of page budget ≤ max 1 (budget / max 1 page.tokens) := by
  have hhalve {holds : Prop} [Decidable holds] {target most : ℕ}
      (hbounds : 1 ≤ target ∧ target ≤ most) :
      1 ≤ (if holds then halved target else target) ∧
        (if holds then halved target else target) ≤ most := by
    split
    · exact ⟨halved_pos _, (halved_le hbounds.1).trans hbounds.2⟩
    · exact hbounds
  unfold target_of
  apply hhalve
  apply hhalve
  apply hhalve
  exact ⟨le_min (base_target_pos _) (le_max_left _ _), min_le_right _ _⟩

-- Where two pages or more fit by count, each takes its share of the tokens.
theorem tokens_mul_le {count : ℕ} (hcount : 2 ≤ count) (hfits : count ≤ predictor.target_of page budget) :
    page.tokens * count ≤ budget := by
  have hbound := (predictor.target_of_bounds page budget).2
  have hshare : count ≤ budget / max 1 page.tokens := by
    cases le_max_iff.mp (hfits.trans hbound) with
    | inl hone => omega
    | inr hshare => exact hshare
  calc page.tokens * count ≤ max 1 page.tokens * count := Nat.mul_le_mul_right _ (le_max_right _ _)
    _ = count * max 1 page.tokens := Nat.mul_comm _ _
    _ ≤ budget := (Nat.le_div_iff_mul_le (by omega)).mp hshare

-- No integer of the page or the predictor is too large for a float.
structure Representable (predictor : AdaptiveShardPredictor) (page : PageDescriptor) : Prop where
  context : (Binary64.ofNat? predictor.model_context_tokens).isSome = true
  tokens : (Binary64.quotient? (max 1 page.tokens) 1200).isSome = true
  pixels : (Binary64.quotient? page.pixels 8000000).isSome = true

theorem literal_share : literal 0.72 = .finite (3242591731706757 / 4503599627370496) := by
  decide +kernel

theorem token_budget_ok_iff :
    (∃ budget, predictor.token_budget = .ok budget) ↔
      (Binary64.ofNat? predictor.model_context_tokens).isSome = true := by
  unfold token_budget
  cases hcontext : Binary64.ofNat? predictor.model_context_tokens with
  | none =>
    simp only [Option.elim_none, Option.isSome_none, Bool.false_eq_true, iff_false]
    rintro ⟨budget, hbudget⟩
    cases hbudget
  | some context =>
    obtain ⟨value, hvalue, rfl⟩ := Option.map_eq_some_iff.mp hcontext
    have hlarge : |value| < 2 ^ 1024 := by
      unfold Binary64.nearest? at hvalue
      split at hvalue
      · rename_i hlt
        rwa [← Option.some.inj hvalue]
      · cases hvalue
    have hproduct : |value * (3242591731706757 / 4503599627370496)| ≤ 3 / 4 * 2 ^ 1024 := by
      rw [abs_mul, abs_of_nonneg (by norm_num : (0 : ℚ) ≤ 3242591731706757 / 4503599627370496)]
      generalize (2 : ℚ) ^ 1024 = largest at hlarge ⊢
      have hnonneg := abs_nonneg value
      linarith
    obtain ⟨found, hfound⟩ := Binary64.of_finite hproduct
    simp only [Option.elim_some, Option.isSome_some, iff_true, literal_share]
    refine ⟨(if 0 ≤ found then found.floor else found.ceil).toNat, ?_⟩
    simp only [bind, Except.bind, Binary64.mul, hfound, Binary64.toInt?, Option.elim_some]

theorem quotient_ok_iff {numerator denominator : ℕ} :
    (∃ value, quotient numerator denominator = .ok value) ↔
      (Binary64.quotient? numerator denominator).isSome = true := by
  unfold quotient
  cases Binary64.quotient? numerator denominator with
  | none => simp
  | some value => simp

theorem of_predict {sizing : ShardSizing} (hpredict : predictor.predict page = .ok sizing) :
    Representable predictor page ∧ ∃ budget, predictor.token_budget = .ok budget ∧
      sizing.pages_per_shard = predictor.target_of page budget ∧
      sizing.overlap_pages = overlap page ∧ sizing.required_worker_class = worker_class page := by
  obtain ⟨budget, hbudget, hrest⟩ := of_bind_eq_ok hpredict
  obtain ⟨seconds, hseconds, hmade⟩ := of_bind_eq_ok hrest
  obtain ⟨token_seconds, htokens, hlast⟩ := of_bind_eq_ok hseconds
  obtain ⟨pixel_seconds, hpixels, _⟩ := of_bind_eq_ok hlast
  obtain rfl := Except.ok.inj hmade
  refine ⟨?_, budget, hbudget, rfl, rfl, rfl⟩
  constructor
  · exact token_budget_ok_iff.mp ⟨budget, hbudget⟩
  · exact quotient_ok_iff.mp ⟨token_seconds, htokens⟩
  · exact quotient_ok_iff.mp ⟨pixel_seconds, hpixels⟩

theorem exists_predict (hrange : Representable predictor page) :
    ∃ sizing, predictor.predict page = .ok sizing := by
  obtain ⟨budget, hbudget⟩ := token_budget_ok_iff.mpr hrange.context
  obtain ⟨token_seconds, htokens⟩ := quotient_ok_iff.mpr hrange.tokens
  obtain ⟨pixel_seconds, hpixels⟩ := quotient_ok_iff.mpr hrange.pixels
  simp only [predict, hbudget, expected_seconds, htokens, hpixels]
  exact ⟨_, rfl⟩

-- The sizings of a group, as far as the plan reads them.
structure Sized (predictor : AdaptiveShardPredictor) (budget : ℕ) (group : List PageDescriptor)
    (sizings : List ShardSizing) : Prop where
  targets : sizings.map ShardSizing.pages_per_shard = group.map (predictor.target_of · budget)
  overlaps : sizings.map ShardSizing.overlap_pages = group.map overlap
  classes : sizings.map ShardSizing.required_worker_class = group.map worker_class

theorem sized_of_mapM {group : List PageDescriptor} {sizings : List ShardSizing}
    (hbudget : predictor.token_budget = .ok budget)
    (hsizings : group.mapM predictor.predict = .ok sizings) : Sized predictor budget group sizings := by
  have hall := mapM_eq_ok_iff.mp hsizings
  clear hsizings
  induction hall with
  | nil => exact ⟨rfl, rfl, rfl⟩
  | @cons page sizing group sizings hpredict _ ih =>
    obtain ⟨-, other, hother, htarget, hoverlap, hclass⟩ := of_predict hpredict
    obtain rfl := Except.ok.inj (hother.symm.trans hbudget)
    constructor
    · simp only [List.map_cons, htarget, ih.targets]
    · simp only [List.map_cons, hoverlap, ih.overlaps]
    · simp only [List.map_cons, hclass, ih.classes]

theorem exists_sizings {group : List PageDescriptor} (hbudget : predictor.token_budget = .ok budget)
    (hrange : ∀ page ∈ group, Representable predictor page) :
    ∃ sizings, group.mapM predictor.predict = .ok sizings ∧
      Sized predictor budget group sizings := by
  have hpredict : ∀ page ∈ group, ∃ sizing, predictor.predict page = .ok sizing ∧ True := by
    intro page hpage
    obtain ⟨sizing, hsizing⟩ := exists_predict (hrange page hpage)
    exact ⟨sizing, hsizing, trivial⟩
  obtain ⟨sizings, hsizings, _⟩ := exists_mapM_eq_ok hpredict
  exact ⟨sizings, hsizings, sized_of_mapM hbudget hsizings⟩

theorem representable_of_mapM {group : List PageDescriptor} {sizings : List ShardSizing}
    (hsizings : group.mapM predictor.predict = .ok sizings) :
    ∀ page ∈ group, Representable predictor page := by
  have hall := mapM_eq_ok_iff.mp hsizings
  clear hsizings
  induction hall with
  | nil => simp
  | cons hpredict _ ih => exact List.forall_mem_cons.mpr ⟨(of_predict hpredict).1, ih⟩

end AdaptiveShardPredictor

namespace DeterministicShardPlanner

variable {predictor : AdaptiveShardPredictor} {budget : ℕ}

theorem atomic_groups_eq (pages : List PageDescriptor) :
    atomic_groups pages = Packing.cut PageDescriptor.continues [] pages := by
  have hfold (grouping : Grouping) :
      (if (pages.foldl Grouping.next grouping).current = [] then
          (pages.foldl Grouping.next grouping).groups
        else (pages.foldl Grouping.next grouping).groups ++
          [(pages.foldl Grouping.next grouping).current]) =
        grouping.groups ++ Packing.cut PageDescriptor.continues grouping.current pages := by
    induction pages generalizing grouping with
    | nil => rw [Packing.cut, Packing.append_closed, List.foldl_nil]
    | cons page pages ih =>
      rw [List.foldl_cons, ih, Packing.cut, Grouping.next]
      split
      · rfl
      · rw [List.append_assoc, List.singleton_append]
  exact hfold {}

theorem foldl_min_le (start : ℕ) (values : List ℕ) :
    values.foldl min start ≤ start ∧ ∀ value ∈ values, values.foldl min start ≤ value := by
  induction values generalizing start with
  | nil => simp
  | cons first rest ih =>
    rw [List.foldl_cons]
    obtain ⟨hstart, hrest⟩ := ih (min start first)
    refine ⟨hstart.trans (min_le_left _ _), List.forall_mem_cons.mpr ⟨?_, hrest⟩⟩
    exact hstart.trans (min_le_right _ _)

theorem exists_extreme (choose : ℕ → ℕ → ℕ) [Std.Associative choose] (name : String)
    {values : List ℕ} (hvalues : values ≠ []) :
    ∃ value, extreme choose name values = .ok value ∧
      ∀ start, values.foldl choose start = choose start value := by
  obtain ⟨first, rest, rfl⟩ := List.exists_cons_of_ne_nil hvalues
  exact ⟨rest.foldl choose first, rfl, fun start => List.foldl_assoc⟩

-- The pages a shard of this group may hold at most.
def limit (predictor : AdaptiveShardPredictor) (budget : ℕ) (group : List PageDescriptor) : ℕ :=
  (group.map (predictor.target_of · budget)).foldl min NO_LIMIT

theorem limit_le {group : List PageDescriptor} {page : PageDescriptor} (hpage : page ∈ group) :
    limit predictor budget group ≤ predictor.target_of page budget :=
  (foldl_min_le NO_LIMIT _).2 _ (List.mem_map_of_mem hpage)

theorem limit_append {group : List PageDescriptor} {group_limit : ℕ}
    (hgroup : ∀ start, (group.map (predictor.target_of · budget)).foldl min start =
      min start group_limit) (current : List PageDescriptor) :
    limit predictor budget (current ++ group) =
      min (limit predictor budget current) group_limit := by
  rw [limit, List.map_append, List.foldl_append, hgroup, limit]

-- A group joins a shard that stays within the smallest limit of all its pages.
def joins (predictor : AdaptiveShardPredictor) (budget : ℕ) (current group : List PageDescriptor) :
    Prop :=
  (current ++ group).length ≤ limit predictor budget (current ++ group)

instance (current group : List PageDescriptor) : Decidable (joins predictor budget current group) :=
  Nat.decLe _ _

-- What the loop closes with.
def Packing.close (packing : Packing) : List (List PageDescriptor) :=
  if packing.current = [] then packing.primary_groups
  else packing.primary_groups ++ [packing.current]

theorem next_packing (hbudget : predictor.token_budget = .ok budget) {packing : Packing}
    {group : List PageDescriptor} (hgroup : group ≠ [])
    (hrange : ∀ page ∈ group, predictor.Representable page)
    (hlimit : packing.current_limit = limit predictor budget packing.current) :
    packing.next predictor group =
      .ok (if packing.current ≠ [] ∧ ¬joins predictor budget packing.current group then
          { primary_groups := packing.primary_groups ++ [packing.current]
            current := group
            current_limit := limit predictor budget group }
        else
          { packing with
            current := packing.current ++ group
            current_limit := limit predictor budget (packing.current ++ group) }) := by
  obtain ⟨sizings, hsizings, hsized⟩ := AdaptiveShardPredictor.exists_sizings hbudget hrange
  obtain ⟨group_limit, hextreme, hfold⟩ := exists_extreme min "min"
    (mt List.map_eq_nil_iff.mp hgroup : group.map (predictor.target_of · budget) ≠ [])
  have happend := limit_append hfold packing.current
  have halone : limit predictor budget group = min NO_LIMIT group_limit := limit_append hfold []
  have hjoins : (packing.current ≠ [] ∧
      min (limit predictor budget packing.current) group_limit <
        packing.current.length + group.length) ↔
      packing.current ≠ [] ∧ ¬joins predictor budget packing.current group := by
    rw [joins, happend, List.length_append, not_le]
  simp only [Packing.next, hsizings, hsized.targets, hextreme, bind, Except.bind, happend, halone,
    hlimit]
  split
  · rename_i hflush
    rw [if_pos (hjoins.mp hflush)]
  · rename_i hkeep
    rw [if_neg (mt hjoins.mpr hkeep)]

theorem foldlM_packing (hbudget : predictor.token_budget = .ok budget)
    {groups : List (List PageDescriptor)} (hgroups : ∀ group ∈ groups, group ≠ [])
    (hrange : ∀ group ∈ groups, ∀ page ∈ group, predictor.Representable page) (packing : Packing)
    (hlimit : packing.current_limit = limit predictor budget packing.current) :
    ∃ last, groups.foldlM (Packing.next predictor) packing = .ok last ∧
      last.close = packing.primary_groups ++
        Packing.pack (joins predictor budget) packing.current groups := by
  induction groups generalizing packing with
  | nil => exact ⟨packing, rfl, by rw [Packing.pack, Lib.Packing.append_closed]; rfl⟩
  | cons group groups ih =>
    obtain ⟨hgroup, hrest⟩ := List.forall_mem_cons.mp hgroups
    obtain ⟨hpages, hothers⟩ := List.forall_mem_cons.mp hrange
    rw [List.foldlM_cons, next_packing hbudget hgroup hpages hlimit, Packing.pack]
    split
    · obtain ⟨last, hfold, hclose⟩ := ih hrest hothers
        { primary_groups := packing.primary_groups ++ [packing.current]
          current := group
          current_limit := limit predictor budget group } rfl
      refine ⟨last, hfold, ?_⟩
      rw [hclose, List.append_assoc, List.singleton_append]
    · exact ih hrest hothers
        { packing with
          current := packing.current ++ group
          current_limit := limit predictor budget (packing.current ++ group) } rfl

theorem flatten_atomic_groups (pages : List PageDescriptor) : (atomic_groups pages).flatten = pages := by
  rw [atomic_groups_eq, Packing.flatten_cut, List.nil_append]

theorem ne_nil_of_mem_atomic_groups {pages group : List PageDescriptor}
    (hgroup : group ∈ atomic_groups pages) : group ≠ [] := by
  rw [atomic_groups_eq] at hgroup
  exact Packing.ne_nil_of_mem_cut _ hgroup

-- The loop makes shards of whole groups, and puts groups together only where all
-- their pages have room.
theorem exists_bundles (hbudget : predictor.token_budget = .ok budget) {pages : List PageDescriptor}
    (hrange : ∀ page ∈ pages, predictor.Representable page) :
    ∃ bundles : List (List (List PageDescriptor)), bundles.flatten = atomic_groups pages ∧
      primary_groups predictor pages = .ok (bundles.map List.flatten) ∧
      ∀ bundle ∈ bundles, bundle ≠ [] ∧
        (1 < bundle.length → bundle.flatten.length ≤ limit predictor budget bundle.flatten) := by
  have hpages : ∀ group ∈ atomic_groups pages, ∀ page ∈ group, predictor.Representable page := by
    intro group hgroup page hpage
    apply hrange
    rw [← flatten_atomic_groups pages]
    exact List.mem_flatten_of_mem hgroup hpage
  obtain ⟨last, hfold, hclose⟩ := foldlM_packing hbudget
    (fun group hgroup => ne_nil_of_mem_atomic_groups hgroup) hpages {} rfl
  obtain ⟨bundles, hflatten, hpack, hbundles⟩ :=
    @Packing.pack_bundles _ (joins predictor budget) _
      (fun group => group.length ≤ limit predictor budget group) (fun _ _ hjoins => hjoins) _
      (fun group hgroup => ne_nil_of_mem_atomic_groups hgroup) [] (by simp) (by simp)
  refine ⟨bundles, hflatten, ?_, hbundles⟩
  rw [← hpack]
  simp only [primary_groups, hfold]
  exact congrArg Except.ok hclose

theorem representable_of_foldlM {groups : List (List PageDescriptor)} {packing last : Packing}
    (hfold : groups.foldlM (Packing.next predictor) packing = .ok last) :
    ∀ group ∈ groups, ∀ page ∈ group, predictor.Representable page := by
  induction groups generalizing packing with
  | nil => simp
  | cons group groups ih =>
    rw [List.foldlM_cons] at hfold
    obtain ⟨next, hnext, hrest⟩ := of_bind_eq_ok hfold
    obtain ⟨sizings, hsizings, _⟩ := of_bind_eq_ok hnext
    exact List.forall_mem_cons.mpr
      ⟨AdaptiveShardPredictor.representable_of_mapM hsizings, ih hrest⟩

theorem representable_of_primary_groups {pages : List PageDescriptor}
    {groups : List (List PageDescriptor)} (hgroups : primary_groups predictor pages = .ok groups) :
    ∀ page ∈ pages, predictor.Representable page := by
  obtain ⟨last, hfold, _⟩ := of_bind_eq_ok hgroups
  intro page hpage
  rw [← flatten_atomic_groups pages] at hpage
  obtain ⟨group, hgroup, hin⟩ := List.mem_flatten.mp hpage
  exact representable_of_foldlM hfold group hgroup page hin

end DeterministicShardPlanner

end KnowledgeCompiler.Parallel
