import KnowledgeCompiler.Documents.ReadingOrder

namespace KnowledgeCompiler.Documents.ReadingOrder

open Lib

section Keys

def identity (item : Placed) : String := item.block.block_id

def provider_identity (key : ProviderKey) : String := (ofLex (ofLex key).2).2

def bbox_identity (key : BboxKey) : String :=
  provider_identity (ofLex (ofLex (ofLex (ofLex key).2).2).2).2

theorem provider_identity_key (block : NormalizationBlock) :
    provider_identity (_provider_key block) = block.block_id := by
  unfold _provider_key
  split <;> rfl

theorem bbox_identity_key (item : Placed) : bbox_identity (_bbox_key item) = identity item := by
  exact provider_identity_key item.block

-- Distinct ids make distinct keys.
theorem nodup_of_identity {α κ : Type} {items : List α} {key : α → κ} {name : κ → String}
    {id : α → String} (hname : ∀ item, name (key item) = id item) (hnodup : (items.map id).Nodup) :
    (items.map key).Nodup := by
  refine List.Nodup.of_map name ?_
  rw [List.map_map]
  have hnames : name ∘ key = id := funext hname
  rwa [hnames]

theorem rank_bbox_eq {first second : List Placed} (hperm : first.Perm second)
    (hnodup : (first.map identity).Nodup) : Ranked.rank _bbox_key first = Ranked.rank _bbox_key second :=
  Ranked.rank_eq_of_perm _bbox_key hperm (nodup_of_identity bbox_identity_key hnodup)

end Keys

section Columns

theorem snd_lt_of_mem_zipIdx {α : Type} {items : List α} {entry : α × ℕ} (hmem : entry ∈ items.zipIdx) :
    entry.2 < items.length := by
  obtain ⟨_, hlt, _⟩ := List.mem_zipIdx hmem
  simpa using hlt

def columnItems (columns : List _Column) : List Placed := columns.flatMap _Column.items

theorem columnItems_modify (columns : List _Column) (item : Placed) (index : ℕ)
    (hindex : index < columns.length) :
    (columnItems (columns.modify index (_Column.append item))).Perm (item :: columnItems columns) := by
  induction columns generalizing index with
  | nil => simp at hindex
  | cons column rest ih =>
      cases index with
      | zero =>
          simp only [List.modify_zero_cons, columnItems, List.flatMap_cons, _Column.append,
            List.append_assoc, List.singleton_append]
          exact List.perm_middle
      | succ index =>
          simp only [List.modify_succ_cons, columnItems, List.flatMap_cons]
          have hrest := ih index (by simpa using hindex)
          exact (hrest.append_left column.items).trans List.perm_middle

theorem columnItems_assign (state : List _Column × Bool) (item : Placed) :
    (columnItems (assign_column state item).1).Perm (item :: columnItems state.1) := by
  unfold assign_column
  simp only
  split
  · rename_i found hfound
    refine columnItems_modify state.1 item _ ?_
    obtain ⟨entry, hentry, hkey⟩ := List.mem_filterMap.mp (firstMin_mem hfound)
    split at hkey
    · obtain rfl := Option.some.inj hkey
      exact snd_lt_of_mem_zipIdx hentry
    · cases hkey
  · simp only [columnItems, List.flatMap_append, List.flatMap_singleton, _Column.single]
    exact List.perm_append_singleton item _

theorem columnItems_foldl (items : List Placed) (state : List _Column × Bool) :
    (columnItems (items.foldl assign_column state).1).Perm (items ++ columnItems state.1) := by
  induction items generalizing state with
  | nil => exact .refl _
  | cons item rest ih =>
      have hstep := columnItems_assign state item
      exact (ih (assign_column state item)).trans
        ((hstep.append_left rest).trans List.perm_middle)

theorem columnItems_cluster (blocks : List Placed) :
    (columnItems (_cluster_columns blocks).1).Perm blocks := by
  have hranked := (Ranked.rank_perm (fun column : _Column =>
    toLex (column.center, toLex (column.left, column.right)))
    ((Ranked.rank (fun item => toLex (_center_x item, _bbox_key item)) blocks).foldl assign_column
      ([], false)).1).flatMap_right _Column.items
  have hfold := columnItems_foldl (Ranked.rank (fun item => toLex (_center_x item, _bbox_key item)) blocks)
    ([], false)
  simp only [columnItems, List.flatMap_nil, List.append_nil] at hfold
  exact hranked.trans (hfold.trans (Ranked.rank_perm _ blocks))

theorem cluster_eq {first second : List Placed} (hperm : first.Perm second)
    (hnodup : (first.map identity).Nodup) : _cluster_columns first = _cluster_columns second := by
  have hkeys : (first.map fun item => toLex (_center_x item, _bbox_key item)).Nodup :=
    @nodup_of_identity _ _ _ _ (fun key => bbox_identity (ofLex key).2) identity
      (fun item => bbox_identity_key item) hnodup
  unfold _cluster_columns
  rw [Ranked.rank_eq_of_perm _ hperm hkeys]

end Columns

section Cues

theorem insert_perm {α : Type} (items : List α) (index : ℕ) (item : α) :
    (insert items index item).Perm (item :: items) := by
  have hmiddle := @List.perm_middle _ item (items.take index) (items.drop index)
  rwa [List.take_append_drop] at hmiddle

theorem place_caption_perm {body : List Placed} {caption : Placed} (hmem : caption ∈ body) :
    (place_caption body caption).Perm body := by
  unfold place_caption
  simp only
  split
  · exact .refl _
  · exact (insert_perm _ _ _).trans (List.perm_cons_erase hmem).symm

theorem place_captions_perm (captions body : List Placed) (hmem : ∀ caption ∈ captions, caption ∈ body) :
    (captions.foldl place_caption body).Perm body := by
  induction captions generalizing body with
  | nil => exact .refl _
  | cons caption rest ih =>
      have hstep := place_caption_perm (hmem caption List.mem_cons_self)
      refine (ih (place_caption body caption) fun other hother => ?_).trans hstep
      exact hstep.symm.subset (hmem other (List.mem_cons_of_mem _ hother))

-- The first, the last and the rest are all the blocks of a page.
theorem semantic_cues_perm (casefold : String → String) (blocks : List Placed) :
    (_apply_semantic_cues casefold blocks).Perm blocks := by
  unfold _apply_semantic_cues
  simp only
  generalize hprefixes : (blocks.filter fun item =>
    ["header", "title"].contains item.block.block_type) = prefixes
  generalize hsuffixes : (blocks.filter fun item =>
    ["footer", "page_number"].contains item.block.block_type) = suffixes
  have hbody : (blocks.filter fun item => !prefixes.contains item && !suffixes.contains item) =
      (blocks.filter fun item => !(["header", "title"].contains item.block.block_type)).filter
        fun item => !(["footer", "page_number"].contains item.block.block_type) := by
    rw [List.filter_filter]
    refine List.filter_congr fun item hmem => ?_
    have hfirst : prefixes.contains item = ["header", "title"].contains item.block.block_type := by
      rw [← hprefixes, Bool.eq_iff_iff, List.contains_iff_mem, List.mem_filter]
      exact and_iff_right hmem
    have hlast : suffixes.contains item = ["footer", "page_number"].contains item.block.block_type := by
      rw [← hsuffixes, Bool.eq_iff_iff, List.contains_iff_mem, List.mem_filter]
      exact and_iff_right hmem
    rw [hfirst, hlast, Bool.and_comm]
  have hlater : suffixes =
      (blocks.filter fun item => !(["header", "title"].contains item.block.block_type)).filter
        fun item => ["footer", "page_number"].contains item.block.block_type := by
    rw [← hsuffixes, List.filter_filter]
    refine List.filter_congr fun item _ => ?_
    by_cases hfooter : ["footer", "page_number"].contains item.block.block_type = true
    · have hnot : ["header", "title"].contains item.block.block_type = false := by
        simp only [List.contains_cons, List.contains_nil, Bool.or_false, Bool.or_eq_true,
          beq_iff_eq] at hfooter
        rcases hfooter with hfooter | hfooter <;> simp [hfooter]
      rw [hfooter, hnot]
      rfl
    · simp only [Bool.not_eq_true] at hfooter
      rw [hfooter]
      rfl
  have hcaptions := place_captions_perm
    ((blocks.filter fun item => !prefixes.contains item && !suffixes.contains item).filter
      fun item => item.block.block_type = "caption")
    (blocks.filter fun item => !prefixes.contains item && !suffixes.contains item)
    fun caption hmem => (List.mem_filter.mp hmem).1
  have hrest := List.filter_append_perm
    (fun item : Placed => ["footer", "page_number"].contains item.block.block_type)
    (blocks.filter fun item => !(["header", "title"].contains item.block.block_type))
  have hall := List.filter_append_perm
    (fun item : Placed => ["header", "title"].contains item.block.block_type) blocks
  rw [List.append_assoc]
  refine ((Ranked.rank_perm _ prefixes).append (hcaptions.append (Ranked.rank_perm _ suffixes))).trans ?_
  rw [hbody]
  refine (List.Perm.append_left prefixes (List.perm_append_comm.trans ?_)).trans (hprefixes ▸ hall)
  rw [hlater]
  exact hrest

end Cues

section Page

variable {first second : List NormalizationBlock}

theorem map_block_bounded (blocks : List NormalizationBlock) :
    (bounded blocks).map Placed.block = blocks.filter fun block => block.bbox1000.isSome := by
  induction blocks with
  | nil => rfl
  | cons block rest ih =>
      have hplace : (place? block).map Placed.block = if block.bbox1000.isSome then some block else none := by
        unfold place?
        split
        · rename_i box hbox
          simp [hbox]
        · rename_i hbox
          simp [hbox]
      cases hbox : block.bbox1000 with
      | none =>
          rw [hbox] at hplace
          simp only [Option.isSome_none, Bool.false_eq_true, if_false, Option.map_eq_none_iff] at hplace
          simp only [bounded] at ih ⊢
          simp [hplace, hbox, ih]
      | some box =>
          rw [hbox] at hplace
          simp only [Option.isSome_some, if_true, Option.map_eq_some_iff] at hplace
          obtain ⟨item, hitem, heq⟩ := hplace
          simp only [bounded] at ih ⊢
          simp [hitem, heq, hbox, ih]

theorem map_identity_bounded (blocks : List NormalizationBlock) :
    ((bounded blocks).map identity).Sublist (blocks.map NormalizationBlock.block_id) := by
  have hmap : (bounded blocks).map identity =
      ((bounded blocks).map Placed.block).map NormalizationBlock.block_id := by
    rw [List.map_map]
    rfl
  rw [hmap, map_block_bounded]
  exact List.filter_sublist.map _

-- Every block with a place is met in exactly one band.
theorem page_entries_perm (blocks : List NormalizationBlock) :
    ((page_entries blocks).map Prod.fst).Perm (bounded blocks) := by
  have hband (band : ℕ) : ((band_entries blocks band).map Prod.fst).Perm
      (band_members blocks band ++ (spanning blocks)[band]?.toList) := by
    unfold band_entries
    simp only [List.map_append, List.map_map, Function.comp_def, List.map_id', List.map_flatMap]
    refine List.Perm.append ?_ (.refl _)
    have hzip : ((_cluster_columns (band_members blocks band)).1.zipIdx.flatMap fun column =>
        Ranked.rank _bbox_key column.1.items) =
        (_cluster_columns (band_members blocks band)).1.flatMap fun column =>
          Ranked.rank _bbox_key column.items := by
      rw [← List.flatMap_map Prod.fst (fun column : _Column => Ranked.rank _bbox_key column.items),
        List.zipIdx_map_fst]
    rw [hzip]
    refine List.Perm.trans ?_ (columnItems_cluster (band_members blocks band))
    exact List.Perm.flatMap_left _ fun column _ => Ranked.rank_perm _bbox_key column.items
  have hbands : (page_entries blocks).map Prod.fst = (List.range ((spanning blocks).length + 1)).flatMap
      fun band => (band_entries blocks band).map Prod.fst := by
    rw [page_entries, List.map_flatMap]
  have hmembers := Grouping.flatMap_filter_perm (List.nodup_range (n := (spanning blocks).length + 1))
    (band_of blocks) (ordinary blocks) (fun item _ => by
      rw [List.mem_range]
      exact Nat.lt_succ_of_le List.countP_le_length)
  rw [hbands]
  have hsplit : ((List.range ((spanning blocks).length + 1)).flatMap fun band =>
      (band_entries blocks band).map Prod.fst).Perm
      (((List.range ((spanning blocks).length + 1)).flatMap (band_members blocks)) ++
        (List.range ((spanning blocks).length + 1)).flatMap fun band => (spanning blocks)[band]?.toList) :=
    (List.Perm.flatMap_left _ fun band _ => hband band).trans (List.flatMap_append_perm _ _ _).symm
  rw [Grouping.flatMap_getElem? _ _ (Nat.le_succ _)] at hsplit
  have hparts := hsplit.trans (hmembers.append_right (spanning blocks))
  have hspanning := (Ranked.rank_perm _bbox_key ((bounded blocks).filter _is_spanning)).append_left
    (ordinary blocks)
  refine hparts.trans (hspanning.trans (List.perm_append_comm.trans ?_))
  exact List.filter_append_perm _is_spanning (bounded blocks)

theorem semantic_perm (blocks : List NormalizationBlock) (casefold : String → String) :
    (semantic blocks casefold).Perm blocks := by
  have hcues := ((semantic_cues_perm casefold ((page_entries blocks).map Prod.fst)).trans
    (page_entries_perm blocks)).map Placed.block
  rw [map_block_bounded] at hcues
  have hunbounded := Ranked.rank_perm _provider_key (unbounded blocks)
  refine (hcues.append hunbounded).trans ?_
  have hall := List.filter_append_perm (fun block : NormalizationBlock => block.bbox1000.isSome) blocks
  have hnone : unbounded blocks = blocks.filter fun block => !block.bbox1000.isSome := by
    refine List.filter_congr fun block _ => ?_
    cases block.bbox1000 <;> rfl
  rw [hnone]
  exact hall

theorem intersection_comm (left right : Bbox) : _intersection_ratio left right = _intersection_ratio right left := by
  obtain ⟨left_x1, left_y1, left_x2, left_y2⟩ := left
  obtain ⟨right_x1, right_y1, right_x2, right_y2⟩ := right
  simp only [_intersection_ratio, min_comm, max_comm]

variable (hperm : first.Perm second) (hnodup : (first.map NormalizationBlock.block_id).Nodup)

include hperm

theorem overlapping_eq : overlapping first = overlapping second := by
  have hsubset {one other : List NormalizationBlock} (hperm : one.Perm other) :
      overlapping one ⊆ overlapping other := by
    intro id hid
    simp only [overlapping, List.mem_toFinset, List.mem_flatMap, List.mem_filter] at hid ⊢
    obtain ⟨pair, ⟨hpair, hratio⟩, hid⟩ := hid
    rcases mem_pairs_of_perm (hperm.filterMap place?) hpair with hmem | hmem
    · exact ⟨pair, ⟨hmem, hratio⟩, hid⟩
    · refine ⟨pair.swap, ⟨hmem, ?_⟩, ?_⟩
      · rw [Prod.fst_swap, Prod.snd_swap, intersection_comm]
        exact hratio
      · simp only [List.mem_cons, List.not_mem_nil, or_false, Prod.fst_swap, Prod.snd_swap] at hid ⊢
        exact hid.symm
  exact Finset.Subset.antisymm (hsubset hperm) (hsubset hperm.symm)

theorem duplicate_provider_eq : duplicate_provider first = duplicate_provider second := by
  have hvalues := hperm.filterMap _provider_order
  unfold duplicate_provider
  simp only
  rw [hvalues.length_eq, List.toFinset_eq_of_perm _ _ hvalues]

include hnodup

theorem spanning_eq : spanning first = spanning second := by
  have hbounded := (map_identity_bounded first).nodup hnodup
  exact rank_bbox_eq ((hperm.filterMap place?).filter _is_spanning)
    ((List.filter_sublist.map identity).nodup hbounded)

theorem band_entries_eq (band : ℕ) : band_entries first band = band_entries second band := by
  have hspanning := spanning_eq hperm hnodup
  have hmembers : (band_members first band).Perm (band_members second band) := by
    have hbands : band_of first = band_of second := by
      funext item
      rw [band_of, band_of, hspanning]
    unfold band_members
    rw [hbands]
    exact ((hperm.filterMap place?).filter _).filter _
  have hidentities : ((band_members first band).map identity).Nodup := by
    have hbounded := (map_identity_bounded first).nodup hnodup
    exact ((List.filter_sublist.trans List.filter_sublist).map identity).nodup hbounded
  unfold band_entries
  rw [cluster_eq hmembers hidentities, hspanning]

theorem page_entries_eq : page_entries first = page_entries second := by
  unfold page_entries
  rw [spanning_eq hperm hnodup]
  exact List.flatMap_congr fun band _ => band_entries_eq hperm hnodup band

theorem page_positions_eq (casefold : String → String) :
    _page_positions first casefold = _page_positions second casefold := by
  have hentries := page_entries_eq hperm hnodup
  have hunbounded : Ranked.rank _provider_key (unbounded first) =
      Ranked.rank _provider_key (unbounded second) := by
    have hids : ((unbounded first).map NormalizationBlock.block_id).Nodup :=
      (List.filter_sublist.map NormalizationBlock.block_id).nodup hnodup
    exact Ranked.rank_eq_of_perm _ (hperm.filter _) (nodup_of_identity provider_identity_key hids)
  have hsemantic : semantic first casefold = semantic second casefold := by
    rw [semantic, semantic, hentries, hunbounded]
  have huncertain : uncertain_ids first = uncertain_ids second := by
    rw [uncertain_ids, uncertain_ids, hentries, overlapping_eq hperm]
  have hposition : page_position first casefold = page_position second casefold := by
    funext block
    unfold page_position
    rw [hentries, huncertain, duplicate_provider_eq hperm]
  rw [_page_positions, _page_positions, hsemantic, hposition]

end Page

section Document

variable (casefold : String → String)

-- The positions of the pages, one after the other.
def page_sequence (blocks : List NormalizationBlock) : List (ℤ × _PagePosition × ℕ) :=
  (pages blocks).flatMap fun page_number =>
    (_page_positions (page_blocks blocks page_number) casefold).zipIdx.map fun entry => (page_number, entry)

def reading_of (blocks : List NormalizationBlock) : Reading :=
  (pages blocks).foldl (record_page casefold blocks) { records := [], previous := none }

theorem reading_of_eq (blocks : List NormalizationBlock) :
    reading_of casefold blocks = (page_sequence casefold blocks).foldl
      (fun reading entry => record_position casefold entry.1 reading entry.2)
      { records := [], previous := none } := by
  have hpage : record_page casefold blocks = fun reading page_number =>
      ((_page_positions (page_blocks blocks page_number) casefold).zipIdx.map
        fun entry => (page_number, entry)).foldl
        (fun reading entry => record_position casefold entry.1 reading entry.2) reading := by
    funext reading page_number
    rw [record_page, List.foldl_map]
  rw [reading_of, page_sequence, List.foldl_flatMap, hpage]

-- What the records say of the positions they were made of, in their order.
structure Recorded (positions : List (ℤ × _PagePosition × ℕ)) (records : List ReadingOrderRecord) : Prop where
  ids : records.map ReadingOrderRecord.block_id = positions.map fun entry => entry.2.1.block.block_id
  pages : records.map ReadingOrderRecord.page_number = positions.map Prod.fst
  orders : records.map ReadingOrderRecord.final_order = List.range records.length

theorem Recorded.step {positions : List (ℤ × _PagePosition × ℕ)} {reading : Reading}
    (hrecorded : Recorded positions reading.records) (entry : ℤ × _PagePosition × ℕ) :
    Recorded (positions ++ [entry]) (record_position casefold entry.1 reading entry.2).records where
  ids := by simp [record_position, hrecorded.ids]
  pages := by simp [record_position, hrecorded.pages]
  orders := by simp [record_position, hrecorded.orders, List.range_succ]

theorem recorded_foldl (rest positions : List (ℤ × _PagePosition × ℕ)) (reading : Reading)
    (hrecorded : Recorded positions reading.records) :
    Recorded (positions ++ rest) (rest.foldl
      (fun reading entry => record_position casefold entry.1 reading entry.2) reading).records := by
  induction rest generalizing positions reading with
  | nil => simpa using hrecorded
  | cons entry rest ih =>
      have hnext := ih (positions ++ [entry]) _ (hrecorded.step casefold entry)
      simpa using hnext

theorem recorded_reading (blocks : List NormalizationBlock) :
    Recorded (page_sequence casefold blocks) (reading_of casefold blocks).records := by
  rw [reading_of_eq]
  exact recorded_foldl casefold _ [] _ ⟨rfl, rfl, rfl⟩

theorem pages_nodup (blocks : List NormalizationBlock) : (pages blocks).Nodup :=
  (Ranked.rank_perm id _).nodup_iff.mpr (List.nodup_dedup _)

theorem mem_pages {blocks : List NormalizationBlock} {block : NormalizationBlock} (hmem : block ∈ blocks) :
    block.page_number ∈ pages blocks := by
  rw [pages, (Ranked.rank_perm id _).mem_iff, List.mem_dedup]
  exact List.mem_map_of_mem hmem

theorem blocks_of_positions (blocks : List NormalizationBlock) (page_number : ℤ) :
    ((_page_positions (page_blocks blocks page_number) casefold).map _PagePosition.block).Perm
      (page_blocks blocks page_number) := by
  have hblocks : (_page_positions (page_blocks blocks page_number) casefold).map _PagePosition.block =
      semantic (page_blocks blocks page_number) casefold := by
    rw [_page_positions, List.map_map]
    exact List.map_id _
  rw [hblocks]
  exact semantic_perm _ casefold

-- Page by page, every block has one position.
theorem blocks_of_sequence (blocks : List NormalizationBlock) :
    ((page_sequence casefold blocks).map fun entry => entry.2.1.block).Perm blocks := by
  have hpages : ((page_sequence casefold blocks).map fun entry => entry.2.1.block) =
      (pages blocks).flatMap fun page_number =>
        (_page_positions (page_blocks blocks page_number) casefold).map _PagePosition.block := by
    rw [page_sequence, List.map_flatMap]
    refine List.flatMap_congr fun page_number _ => ?_
    rw [List.map_map]
    change ((_page_positions (page_blocks blocks page_number) casefold).zipIdx.map
      (_PagePosition.block ∘ Prod.fst)) = _
    rw [← List.map_map, List.zipIdx_map_fst]
  rw [hpages]
  refine (List.Perm.flatMap_left _ fun page_number _ => blocks_of_positions casefold blocks page_number).trans ?_
  exact Grouping.flatMap_filter_perm (pages_nodup blocks) NormalizationBlock.page_number blocks
    fun block hmem => mem_pages hmem

theorem page_of_sequence (blocks : List NormalizationBlock) {entry : ℤ × _PagePosition × ℕ}
    (hmem : entry ∈ page_sequence casefold blocks) :
    entry.2.1.block ∈ blocks ∧ entry.2.1.block.page_number = entry.1 := by
  simp only [page_sequence, List.mem_flatMap, List.mem_map] at hmem
  obtain ⟨page_number, _, position, hposition, rfl⟩ := hmem
  have hblock := List.mem_map_of_mem (f := _PagePosition.block) (List.fst_mem_of_mem_zipIdx hposition)
  have hpage := (blocks_of_positions casefold blocks page_number).subset hblock
  simpa [page_blocks] using List.mem_filter.mp hpage

theorem pages_ascending (blocks : List NormalizationBlock) :
    ((page_sequence casefold blocks).map Prod.fst).Pairwise (· ≤ ·) := by
  have hpages : (page_sequence casefold blocks).map Prod.fst = (pages blocks).flatMap fun page_number =>
      List.replicate (_page_positions (page_blocks blocks page_number) casefold).length page_number := by
    rw [page_sequence, List.map_flatMap]
    refine List.flatMap_congr fun page_number _ => ?_
    rw [List.map_map]
    refine List.eq_replicate_iff.mpr ⟨by simp, ?_⟩
    intro page hmem
    obtain ⟨_, _, rfl⟩ := List.mem_map.mp hmem
    rfl
  have hsorted : (pages blocks).Pairwise (· ≤ ·) := Ranked.rank_pairwise id _
  rw [hpages]
  refine List.pairwise_flatMap.mpr ⟨fun page _ => ?_, hsorted.imp ?_⟩
  · exact List.pairwise_replicate.mpr (Or.inr le_rfl)
  · intro first second hle one hone other hother
    rw [List.eq_of_mem_replicate hone, List.eq_of_mem_replicate hother]
    exact hle

-- Every block once, the orders dense from zero, the pages one after the other.
structure Complete (blocks : List NormalizationBlock) (result : ReadingOrderResult) : Prop where
  once : result.ordered_block_ids.Perm (blocks.map NormalizationBlock.block_id)
  recorded : result.records.map ReadingOrderRecord.block_id = result.ordered_block_ids
  dense : result.records.map ReadingOrderRecord.final_order = List.range blocks.length
  ascending : (result.records.map ReadingOrderRecord.page_number).Pairwise (· ≤ ·)
  in_place : ∀ record ∈ result.records, ∃ block ∈ blocks,
    record.block_id = block.block_id ∧ record.page_number = block.page_number

def result_of (blocks : List NormalizationBlock) : ReadingOrderResult :=
  let reading := reading_of casefold blocks
  { ordered_block_ids := reading.records.map ReadingOrderRecord.block_id
    records := reading.records
    uncertain_block_ids := (reading.records.filter (·.uncertain)).map ReadingOrderRecord.block_id }

theorem complete_result (blocks : List NormalizationBlock) :
    Complete blocks (result_of casefold blocks) := by
  have hrecorded := recorded_reading casefold blocks
  have hblocks := blocks_of_sequence casefold blocks
  have hlength : (reading_of casefold blocks).records.length = blocks.length := by
    have hids := congrArg List.length hrecorded.ids
    simp only [List.length_map] at hids
    rw [hids, ← hblocks.length_eq, List.length_map]
  constructor
  · simp only [result_of]
    rw [hrecorded.ids]
    have hids := hblocks.map NormalizationBlock.block_id
    rwa [List.map_map] at hids
  · rfl
  · simp only [result_of]
    rw [hrecorded.orders, hlength]
  · simp only [result_of]
    rw [hrecorded.pages]
    exact pages_ascending casefold blocks
  · intro record hmem
    obtain ⟨index, hindex, rfl⟩ := List.getElem_of_mem hmem
    simp only [result_of] at hindex ⊢
    have hsize : index < (page_sequence casefold blocks).length := by
      have hids := congrArg List.length hrecorded.ids
      simp only [List.length_map] at hids
      omega
    obtain ⟨hblock, hpage⟩ := page_of_sequence casefold blocks (List.getElem_mem hsize)
    refine ⟨_, hblock, ?_, ?_⟩
    · have hid := congrArg (·[index]?) hrecorded.ids
      simpa [hindex, hsize] using hid
    · have hnumber := congrArg (·[index]?) hrecorded.pages
      rw [hpage]
      simpa [hindex, hsize] using hnumber

theorem infer_eq (blocks : List NormalizationBlock) (hunique : (blocks.map NormalizationBlock.block_id).Nodup)
    (hpages : ∀ block ∈ blocks, 1 ≤ block.page_number) :
    infer_reading_order casefold blocks = .ok (result_of casefold blocks) := by
  unfold infer_reading_order
  simp only
  rw [if_neg, if_neg]
  · rfl
  · simp only [List.any_eq_true, decide_eq_true_eq, not_exists, not_and, not_lt]
    exact hpages
  · rw [not_not, List.toFinset_card_of_nodup hunique]

theorem result_of_perm {first second : List NormalizationBlock} (hperm : first.Perm second)
    (hunique : (first.map NormalizationBlock.block_id).Nodup) :
    result_of casefold first = result_of casefold second := by
  have hpages : pages first = pages second := by
    unfold pages
    refine Ranked.rank_eq_of_perm id (hperm.map NormalizationBlock.page_number).dedup ?_
    rw [List.map_id]
    exact List.nodup_dedup _
  have hrecord : record_page casefold first = record_page casefold second := by
    funext reading page_number
    have hids : ((page_blocks first page_number).map NormalizationBlock.block_id).Nodup :=
      (List.filter_sublist.map NormalizationBlock.block_id).nodup hunique
    have hblocks : (page_blocks first page_number).Perm (page_blocks second page_number) := hperm.filter _
    unfold record_page
    rw [page_positions_eq hblocks hids]
  unfold result_of reading_of
  rw [hpages, hrecord]

theorem reading_order_settled (blocks : List NormalizationBlock)
    (hunique : (blocks.map NormalizationBlock.block_id).Nodup)
    (hpages : ∀ block ∈ blocks, 1 ≤ block.page_number) :
    ∃ result, infer_reading_order casefold blocks = .ok result ∧ Complete blocks result ∧
      ∀ other, other.Perm blocks → infer_reading_order casefold other = .ok result := by
  refine ⟨result_of casefold blocks, infer_eq casefold blocks hunique hpages,
    complete_result casefold blocks, fun other hperm => ?_⟩
  have hids := (hperm.map NormalizationBlock.block_id).nodup_iff.mpr hunique
  rw [infer_eq casefold other hids fun block hmem => hpages block (hperm.subset hmem),
    result_of_perm casefold hperm hids]

-- A figure with its caption above it, a paragraph without a box, and a heading over both columns.
def paper : List NormalizationBlock :=
  [{ block_id := "caption", page_number := 1, order := 0, block_type := "caption", raw_text := "Fig. 1",
     normalized_text := "Fig. 1", bbox1000 := some (100, 200, 400, 250), source_ref_ids := [] },
   { block_id := "figure", page_number := 1, order := 1, block_type := "figure", raw_text := "",
     normalized_text := "", bbox1000 := some (100, 300, 400, 600), source_ref_ids := [] },
   { block_id := "loose", page_number := 1, order := 2, block_type := "paragraph", raw_text := "x",
     normalized_text := "x", bbox1000 := none, source_ref_ids := [] },
   { block_id := "heading", page_number := 1, order := 3, block_type := "heading", raw_text := "A",
     normalized_text := "A", bbox1000 := some (100, 100, 900, 150), source_ref_ids := [] }]

theorem paper_settled :
    (paper.map NormalizationBlock.block_id).Nodup ∧ (∀ block ∈ paper, 1 ≤ block.page_number) ∧
      ∃ result, infer_reading_order id paper = .ok result ∧ Complete paper result ∧
        ∀ other, other.Perm paper → infer_reading_order id other = .ok result := by
  have hunique : (paper.map NormalizationBlock.block_id).Nodup := by decide
  have hpages : ∀ block ∈ paper, 1 ≤ block.page_number := by decide
  exact ⟨hunique, hpages, reading_order_settled id paper hunique hpages⟩

def unnumbered : List NormalizationBlock :=
  [{ block_id := "b", page_number := 0, order := 0, block_type := "paragraph", raw_text := "x",
     normalized_text := "x", bbox1000 := none, source_ref_ids := [] }]

theorem page_zero_refused :
    (unnumbered.map NormalizationBlock.block_id).Nodup ∧
      ¬∃ result, infer_reading_order id unnumbered = .ok result := by
  refine ⟨by decide, ?_⟩
  rintro ⟨result, hresult⟩
  have hrefused : infer_reading_order id unnumbered = .error "page_number must be positive" := by decide
  rw [hrefused] at hresult
  cases hresult

end Document

end KnowledgeCompiler.Documents.ReadingOrder
