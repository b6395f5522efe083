import KnowledgeCompiler.Parallel.Acceptance
import KnowledgeCompiler.Parallel.Chaining

namespace KnowledgeCompiler.Parallel

open Lib Method

namespace ContinuityMerger

-- Where a block stands in its source.
def position (block : ParsedBlock) : ℕ ×ₗ ℕ := toLex (block.page_index0, block.order)

def InSourceOrder (outputs : List ShardOutput) (block : MergedBlock) : Prop :=
  block.provenance_block_ids.Pairwise fun first second =>
    ∀ earlier ∈ outputs.flatMap owned_of, ∀ later ∈ outputs.flatMap owned_of,
      earlier.block_id = first → later.block_id = second → position earlier ≤ position later

-- Within a page no block is continued by an earlier one.
def ForwardsWithinPages (arguments : MergeArguments) : Prop :=
  ∀ edge ∈ arguments.edges, edge.kind = .CONTINUES →
    ∀ source ∈ arguments.outputs.flatMap owned_of, ∀ target ∈ arguments.outputs.flatMap owned_of,
      source.block_id = edge.from_block_id → target.block_id = edge.to_block_id →
      source.page_index0 = target.page_index0 → source.order ≤ target.order

variable {hasher : Hasher} {casefold : String → String} {arguments : MergeArguments}
  {result : ContinuityMergeResult}

theorem mem_owned_iff {block : ParsedBlock} :
    block ∈ owned_blocks arguments.outputs ↔ block ∈ arguments.outputs.flatMap owned_of :=
  (List.perm_insertionSort _ _).mem_iff

theorem Assembled.owned {chains : List Chain} (hmade : Assembled hasher casefold arguments result chains)
    {chain : Chain} (hchain : chain ∈ chains) {member : ParsedBlock} (hmember : member ∈ chain.members) :
    member ∈ arguments.outputs.flatMap owned_of := by
  have hactive := hmade.members.mem_iff.mp (List.mem_flatMap.mpr ⟨chain, hchain, hmember⟩)
  exact mem_owned_iff.mp (List.mem_of_mem_filter hactive)

-- A step between pages goes forwards; one within a page is a CONTINUES edge.
theorem position_le_of_step (hforwards : ForwardsWithinPages arguments) {edge : ContinuityEdge}
    {source target : ParsedBlock} (hedge : edge ∈ arguments.edges) (hjoin : IsJoin edge)
    (hfrom : edge.from_block_id = source.block_id) (hto : edge.to_block_id = target.block_id)
    (hjoinable : Joinable edge.kind source target)
    (hsource : source ∈ arguments.outputs.flatMap owned_of)
    (htarget : target ∈ arguments.outputs.flatMap owned_of) : position source ≤ position target := by
  refine Prod.Lex.toLex_le_toLex.mpr ?_
  rcases Nat.lt_or_eq_of_le hjoinable.forwards with hlater | hsame
  · exact Or.inl hlater
  · rcases hjoin with hcontinues | htable
    · exact Or.inr ⟨hsame, hforwards edge hedge hcontinues source hsource target htarget hfrom.symm
        hto.symm hsame⟩
    · have hadjacent := hjoinable.adjacent htable
      omega

theorem in_source_order_of_forwards {chains : List Chain}
    (hmade : Assembled hasher casefold arguments result chains)
    (hids : ((owned_blocks arguments.outputs).map ParsedBlock.block_id).Nodup)
    (hforwards : ForwardsWithinPages arguments) {block : MergedBlock} (hblock : block ∈ result.blocks) :
    InSourceOrder arguments.outputs block := by
  obtain ⟨chain, hchain, rfl⟩ := List.mem_map.mp (hmade.blocks.mem_iff.mp hblock)
  have hsteps : chain.members.IsChain fun source target => position source ≤ position target := by
    refine (hmade.steps chain hchain).imp_of_mem_imp fun source target hsource htarget hstep => ?_
    obtain ⟨edge, hedge, hjoin, hfrom, hto, hjoinable⟩ := hstep
    exact position_le_of_step hforwards hedge hjoin hfrom hto hjoinable
      (hmade.owned hchain hsource) (hmade.owned hchain htarget)
  have htrans : IsTrans ParsedBlock fun source target => position source ≤ position target :=
    ⟨fun _ _ _ => le_trans⟩
  have hordered := List.isChain_iff_pairwise.mp hsteps
  unfold InSourceOrder
  rw [Chain.provenance_merged, List.pairwise_map]
  refine hordered.imp_of_mem fun {source target} hsource htarget hle earlier hearlier later hlater
    hfirst hsecond => ?_
  rw [List.inj_on_of_nodup_map hids (mem_owned_iff.mpr hearlier)
      (mem_owned_iff.mpr (hmade.owned hchain hsource)) hfirst,
    List.inj_on_of_nodup_map hids (mem_owned_iff.mpr hlater)
      (mem_owned_iff.mpr (hmade.owned hchain htarget)) hsecond]
  exact hle

-- The two blocks of an edge that joins stand side by side in the provenance.
theorem forwards_of_in_source_order {chains : List Chain}
    (hmade : Assembled hasher casefold arguments result chains)
    (hordered : ∀ block ∈ result.blocks, InSourceOrder arguments.outputs block) :
    ForwardsWithinPages arguments := by
  intro edge hedge hcontinues source hsource target htarget hfrom hto hpage
  obtain ⟨chain, hchain, before, first, second, after, hmembers, hfirst, hsecond⟩ :=
    hmade.joined edge hedge (Or.inl hcontinues)
  have hblock := hordered _ (hmade.blocks.mem_iff.mpr (List.mem_map_of_mem hchain))
  unfold InSourceOrder at hblock
  rw [Chain.provenance_merged, hmembers, List.map_append, List.map_cons, List.map_cons] at hblock
  have hpair := List.isChain_iff_forall_rel_of_append_cons_cons.mp hblock.isChain rfl
  have hle := hpair source hsource target htarget (hfrom.trans hfirst.symm) (hto.trans hsecond.symm)
  rcases Prod.Lex.toLex_le_toLex.mp hle with hless | ⟨-, horder⟩
  · exact absurd hless (by simp [hpage])
  · exact horder

theorem in_source_order_iff (hmerged : merged hasher casefold arguments = .ok result)
    (haccepted : result.accepted = true) :
    (∀ block ∈ result.blocks, InSourceOrder arguments.outputs block) ↔
      ForwardsWithinPages arguments := by
  obtain ⟨chains, hmade⟩ := assembled_of_merged hmerged haccepted
  exact ⟨forwards_of_in_source_order hmade, fun hforwards _ hblock =>
    in_source_order_of_forwards hmade (ran_of_merged hmerged).1 hforwards hblock⟩

-- The merged text follows the source exactly when no edge goes back within a page.
theorem accepted_merge_in_source_order_iff (merger : ContinuityMerger) (arguments : MergeArguments)
    (result : ContinuityMergeResult) (hreached : Reached hasher casefold merger)
    (hmerge : (merge hasher casefold arguments merger).1 = .ok result)
    (haccepted : result.accepted = true) :
    ∃ asked, ComputedFrom hasher casefold merger arguments asked result ∧
      ((∀ block ∈ result.blocks, InSourceOrder asked.outputs block) ↔ ForwardsWithinPages asked) := by
  obtain ⟨asked, hcomputed⟩ := computed_of_merge hreached hmerge
  exact ⟨asked, hcomputed, in_source_order_iff hcomputed.2.1 haccepted⟩

theorem merge_new (hmerged : merged hasher casefold arguments = .ok result) :
    (merge hasher casefold arguments {}).1 = .ok result := by
  have hends : Ends (fun found _ => found = result) (fun _ _ => False)
      (merge hasher casefold arguments) {} := by
    unfold merge
    rw [ends_bind, ends_self]
    simp [emit, hmerged]
  unfold Ends at hends
  cases hrun : merge hasher casefold arguments {} with
  | mk outcome left =>
    rw [hrun] at hends
    cases outcome with
    | ok found => rw [hends]
    | error fault => exact hends.elim

end ContinuityMerger

open ContinuityMerger

theorem plain_received : ("ref-1" ≠ "" ∧ "model" ≠ "") ∧ is_sha256 plain_digest = true :=
  ⟨by decide, by decide⟩

def plain_receipt : EvidenceReceipt where
  source_ref := "ref-1"
  sha256 := plain_digest
  kind := "model"
  received := plain_received

def first_paragraph : ParsedBlock where
  block_id := "a"
  page_id := "page-1"
  page_index0 := 0
  order := 0
  kind := .PARAGRAPH
  text := "One."
  source_refs := ["ref-1"]
  named := by decide
  evidenced := by decide
  headed := by decide
  tabled := by decide

def second_paragraph : ParsedBlock :=
  { first_paragraph with block_id := "b", order := 1, text := "Two.", named := by decide, evidenced := by decide }

theorem one_page_named : "shard-1" ≠ "" ∧ ["page-1"] ≠ [] := by decide

theorem one_page_separate : ∀ page_id ∈ ["page-1"], page_id ∉ ([] : List String) := by decide

def plain_output : ShardOutput where
  shard_id := "shard-1"
  primary_page_ids := ["page-1"]
  context_page_ids := []
  blocks := [first_paragraph, second_paragraph]
  named := one_page_named
  separate := one_page_separate
  within := by decide

def backward_edge : ContinuityEdge where
  from_block_id := "b"
  to_block_id := "a"
  kind := .CONTINUES
  evidence := [plain_receipt]
  proper := by decide
  evidenced := by decide

def backward_merge : MergeArguments where
  document_version_id := "ver-1"
  outputs := [plain_output]
  edges := [backward_edge]
  expected_page_ids := ["page-1"]
  occurred_at := dispatched_at
  idempotency_key := "merge-1"

theorem backward_merge_accepted : ∃ result,
    merged sha256 (fun text => text) backward_merge = .ok result ∧ result.accepted = true := by
  have hrun : ((merged sha256 (fun text => text) backward_merge).toOption.map
      ContinuityMergeResult.accepted) = some true := by decide +kernel
  obtain ⟨result, hresult, haccepted⟩ := Option.map_eq_some_iff.mp hrun
  exact ⟨result, eq_ok_of_toOption hresult, haccepted⟩

-- One page whose second block is continued by its first.
theorem continued_by_the_block_before : ∃ result,
    (merge sha256 (fun text => text) backward_merge {}).1 = .ok result ∧ result.accepted = true ∧
      ¬∀ block ∈ result.blocks, InSourceOrder backward_merge.outputs block := by
  obtain ⟨result, hmerged, haccepted⟩ := backward_merge_accepted
  refine ⟨result, merge_new hmerged, haccepted, fun hordered => ?_⟩
  have hforwards := (in_source_order_iff hmerged haccepted).mp hordered
  have howned : backward_merge.outputs.flatMap owned_of = [first_paragraph, second_paragraph] := rfl
  have hle := hforwards backward_edge (List.mem_singleton.mpr rfl) rfl second_paragraph
    (by simp [howned]) first_paragraph (by simp [howned]) rfl rfl rfl
  cases hle

theorem backward_merge_iff : ∃ result asked,
    ComputedFrom sha256 (fun text => text) {} backward_merge asked result ∧
      ((∀ block ∈ result.blocks, InSourceOrder asked.outputs block) ↔ ForwardsWithinPages asked) := by
  obtain ⟨result, hmerged, haccepted⟩ := backward_merge_accepted
  exact ⟨result, accepted_merge_in_source_order_iff {} backward_merge result (Reached.new none)
    (merge_new hmerged) haccepted⟩

end KnowledgeCompiler.Parallel
