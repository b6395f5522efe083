import KnowledgeCompiler.Lib.Lists
import KnowledgeCompiler.Parallel.Continuity

namespace KnowledgeCompiler.Parallel

open Lib Method

namespace ContinuityMerger

section Following

variable {outgoing : Dict String String}

-- A chain is what is newly visited, in the order of the edges.
theorem follow_linked {unvisited : ℕ} {visited reached chain : List String} {current : String}
    (hfollow : follow outgoing unvisited visited current = .ok (chain, reached))
    (hnodup : visited.Nodup) :
    reached = visited ++ chain ∧ reached.Nodup ∧ chain.head? = some current ∧
      Linked outgoing.get? chain := by
  induction unvisited generalizing visited current chain with
  | zero => cases hfollow
  | succ unvisited ih =>
    rw [follow, except_bind_eq_ok_iff] at hfollow
    obtain ⟨_, hnew, hrest⟩ := hfollow
    have hcurrent : current ∉ visited := refuse_if_eq_ok_iff.mp hnew
    have hvisited : (visited ++ [current]).Nodup := by
      rw [List.nodup_append_comm]
      exact List.nodup_cons.mpr ⟨hcurrent, hnodup⟩
    cases hnext : outgoing.get? current with
    | none =>
      simp only [hnext, Except.ok.injEq, Prod.mk.injEq] at hrest
      obtain ⟨rfl, rfl⟩ := hrest
      exact ⟨rfl, hvisited, rfl, Linked.single hnext⟩
    | some next =>
      simp only [hnext, except_bind_eq_ok_iff] at hrest
      obtain ⟨⟨rest, after⟩, hgo, hmade⟩ := hrest
      simp only [Except.ok.injEq, Prod.mk.injEq] at hmade
      obtain ⟨rfl, rfl⟩ := hmade
      obtain ⟨rfl, hreached, hhead, hlinked⟩ := ih hgo hvisited
      refine ⟨by simp, hreached, rfl, ?_⟩
      cases rest with
      | nil => cases hhead
      | cons first others =>
        obtain rfl := Option.some.inj hhead
        exact hlinked.cons hnext

structure Gathered (joins : Joins) (gathered : List (List String) × List String) : Prop where
  flat : gathered.2 = gathered.1.flatten
  nodup : gathered.2.Nodup
  linked : ∀ chain ∈ gathered.1, chain ≠ [] ∧ Linked joins.outgoing.get? chain

theorem Gathered.gather_chain {blocks : Dict String ParsedBlock} {joins : Joins}
    {gathered next : List (List String) × List String} {block_id : String}
    (hgathered : Gathered joins gathered)
    (hnext : gather_chain blocks joins gathered block_id = .ok next) : Gathered joins next := by
  unfold ContinuityMerger.gather_chain at hnext
  split at hnext
  · cases hnext
    exact hgathered
  · obtain ⟨⟨chain, visited⟩, hfollow, hmade⟩ := of_bind_eq_ok hnext
    cases hmade
    obtain ⟨hreached, hnodup, hhead, hlinked⟩ := follow_linked hfollow hgathered.nodup
    refine ⟨?_, hnodup, ?_⟩
    · simp [hreached, hgathered.flat]
    · intro other hother
      rcases List.mem_append.mp hother with hbefore | hnew
      · exact hgathered.linked other hbefore
      · obtain rfl := List.mem_singleton.mp hnew
        refine ⟨?_, hlinked⟩
        rintro rfl
        cases hhead

end Following

section Joining

variable {hasher : Hasher} {casefold : String → String} {blocks : Dict String ParsedBlock}

def IsJoin (edge : ContinuityEdge) : Prop := edge.kind = .CONTINUES ∨ edge.kind = .SAME_TABLE

instance : DecidablePred IsJoin := fun _ => inferInstanceAs (Decidable (_ ∨ _))

-- What has been checked of two blocks that an edge joins.
structure Joinable (kind : ContinuityEdgeKind) (source target : ParsedBlock) : Prop where
  forwards : source.page_index0 ≤ target.page_index0
  alike : source.kind = target.kind ∧ source.kind ∈ [.PARAGRAPH, .LIST_ITEM, .TABLE]
  adjacent : kind = .SAME_TABLE → target.page_index0 = source.page_index0 + 1

theorem block_at_eq_ok_iff {block_id : String} {block : ParsedBlock} :
    block_at blocks block_id = .ok block ↔ blocks.get? block_id = some block := by
  unfold block_at
  cases blocks.get? block_id with
  | none => simp
  | some found => simp

theorem joinable_of_join {joins next : Joins} {edge : ContinuityEdge}
    (hjoin : join hasher casefold blocks joins edge = .ok next) :
    joins.outgoing.get? edge.from_block_id = none ∧
      next.outgoing = joins.outgoing.set edge.from_block_id edge.to_block_id ∧
      ∃ source target, blocks.get? edge.from_block_id = some source ∧
        blocks.get? edge.to_block_id = some target ∧ Joinable edge.kind source target := by
  simp only [join, except_bind_eq_ok_iff, refuse_if_eq_ok_iff, exists_const, block_at_eq_ok_iff,
    not_or, Option.not_isSome_iff_eq_none] at hjoin
  obtain ⟨-, ⟨hfree, -⟩, source, hsource, target, htarget, hforwards, hchecked⟩ := hjoin
  have hforwards := Nat.le_of_not_lt hforwards
  split at hchecked
  · simp only [except_bind_eq_ok_iff, check_same_table, refuse_if_eq_ok_iff, exists_const, not_or,
      not_not] at hchecked
    obtain ⟨_, ⟨⟨hsource_table, htarget_table⟩, hidentity⟩, hmade⟩ := hchecked
    cases hmade
    refine ⟨hfree, rfl, source, target, hsource, htarget, hforwards,
      ⟨hsource_table.trans htarget_table.symm, by simp [hsource_table]⟩, fun _ => ?_⟩
    split at hidentity
    · simp only [except_bind_eq_ok_iff, refuse_if_eq_ok_iff, exists_const, not_not] at hidentity
      exact hidentity.2
    · cases hidentity
  · rename_i hkind
    simp only [except_bind_eq_ok_iff, check_continues, refuse_if_eq_ok_iff, exists_const, not_or,
      not_not] at hchecked
    obtain ⟨⟨halike, hmem⟩, hmade⟩ := hchecked
    cases hmade
    refine ⟨hfree, rfl, source, target, hsource, htarget, hforwards, ⟨halike, ?_⟩,
      fun hsame => absurd hsame hkind⟩
    simp only [List.mem_cons, List.not_mem_nil, or_false] at hmem ⊢
    tauto

-- The edges are the entries of `outgoing`: none replaces another.
structure Joined (blocks : Dict String ParsedBlock) (edges : List ContinuityEdge) (before after : Joins) :
    Prop where
  kept : ∀ source_id target_id, before.outgoing.get? source_id = some target_id →
    after.outgoing.get? source_id = some target_id
  entered : ∀ edge ∈ edges, after.outgoing.get? edge.from_block_id = some edge.to_block_id
  origin : ∀ source_id target_id, after.outgoing.get? source_id = some target_id →
    before.outgoing.get? source_id = some target_id ∨
      ∃ edge ∈ edges, edge.from_block_id = source_id ∧ edge.to_block_id = target_id ∧
        ∃ source target, blocks.get? source_id = some source ∧ blocks.get? target_id = some target ∧
          Joinable edge.kind source target

theorem joined_of_foldlM {edges : List ContinuityEdge} {before after : Joins}
    (hfold : edges.foldlM (join hasher casefold blocks) before = .ok after) :
    Joined blocks edges before after := by
  induction edges generalizing before with
  | nil =>
    cases hfold
    exact ⟨fun _ _ hkept => hkept, by simp, fun _ _ hkept => Or.inl hkept⟩
  | cons edge edges ih =>
    rw [List.foldlM_cons] at hfold
    obtain ⟨next, hjoin, hrest⟩ := of_bind_eq_ok hfold
    obtain ⟨hfree, hset, source, target, hsource, htarget, hjoinable⟩ := joinable_of_join hjoin
    have hjoined := ih hrest
    have hkept (source_id target_id : String)
        (hbefore : before.outgoing.get? source_id = some target_id) :
        next.outgoing.get? source_id = some target_id := by
      have hne : source_id ≠ edge.from_block_id := by
        rintro rfl
        rw [hfree] at hbefore
        cases hbefore
      rw [hset, Dict.get?_set_of_ne _ _ hne]
      exact hbefore
    refine ⟨fun source_id target_id hbefore =>
      hjoined.kept source_id target_id (hkept source_id target_id hbefore), ?_, ?_⟩
    · intro other hother
      rcases List.mem_cons.mp hother with rfl | hlater
      · apply hjoined.kept
        rw [hset]
        exact Dict.get?_set_self _ _ _
      · exact hjoined.entered other hlater
    · intro source_id target_id hafter
      rcases hjoined.origin source_id target_id hafter with hnext | ⟨other, hother, horigin⟩
      · rw [hset, Dict.get?_set] at hnext
        split at hnext
        · rename_i hsame
          obtain rfl := Option.some.inj hnext
          subst hsame
          exact Or.inr ⟨edge, by simp, rfl, rfl, source, target, hsource, htarget, hjoinable⟩
        · exact Or.inl hnext
      · exact Or.inr ⟨other, List.mem_cons_of_mem _ hother, horigin⟩

-- One step of a chain: an edge, and what it was checked for.
structure JoinStep (blocks : Dict String ParsedBlock) (edges : List ContinuityEdge)
    (source_id target_id : String) : Prop where
  joinable : ∃ edge ∈ edges, IsJoin edge ∧ edge.from_block_id = source_id ∧
    edge.to_block_id = target_id ∧ ∃ source target, blocks.get? source_id = some source ∧
      blocks.get? target_id = some target ∧ Joinable edge.kind source target

structure Chained (blocks : Dict String ParsedBlock) (edges : List ContinuityEdge)
    (chains : List (List String)) : Prop where
  nodup : chains.flatten.Nodup
  covers : ∀ block_id, block_id ∈ chains.flatten ↔ block_id ∈ blocks.keys
  steps : ∀ chain ∈ chains, chain.IsChain (JoinStep blocks edges)
  joined : ∀ edge ∈ edges, IsJoin edge → ∃ chain ∈ chains, ∃ before after,
    chain = before ++ edge.from_block_id :: edge.to_block_id :: after

theorem chained_of_join_chains {edges : List ContinuityEdge} {chains : List (List String)}
    (hchains : _join_chains hasher casefold blocks edges = .ok chains) :
    Chained blocks edges chains := by
  obtain ⟨joins, hjoins, hrest⟩ := of_bind_eq_ok hchains
  obtain ⟨⟨gathered, visited⟩, hgathered, hrest⟩ := of_bind_eq_ok hrest
  obtain ⟨_, hcovers, hmade⟩ := of_bind_eq_ok hrest
  obtain rfl := Except.ok.inj hmade
  have hjoined := joined_of_foldlM hjoins
  have hall : Gathered joins (gathered, visited) :=
    foldlM_keeps (Gathered joins) (fun _ _ _ hbefore hnext => hbefore.gather_chain hnext) _
      ⟨rfl, List.nodup_nil, by simp⟩ hgathered
  have hflat : visited = gathered.flatten := hall.flat
  obtain ⟨hwithin, hwhole⟩ := not_not.mp (refuse_if_eq_ok_iff.mp hcovers)
  have hmem (edge : ContinuityEdge) (hjoin : IsJoin edge) (hedge : edge ∈ edges) :
      edge ∈ edges.filter fun edge => edge.kind = .CONTINUES ∨ edge.kind = .SAME_TABLE :=
    List.mem_filter.mpr ⟨hedge, decide_eq_true hjoin⟩
  have horigin (source_id target_id : String)
      (hnext : joins.outgoing.get? source_id = some target_id) :
      JoinStep blocks edges source_id target_id := by
    rcases hjoined.origin source_id target_id hnext with hnone | ⟨edge, hedge, hfrom, hto, hat⟩
    · cases hnone
    · obtain ⟨hedge, hjoin⟩ := List.mem_filter.mp hedge
      exact ⟨edge, hedge, of_decide_eq_true hjoin, hfrom, hto, hat⟩
  refine ⟨hflat ▸ hall.nodup, fun block_id => ⟨fun hin => ?_, fun hin => ?_⟩, ?_, ?_⟩
  · exact hwithin (hflat ▸ hin)
  · exact hflat ▸ hwhole hin
  · intro chain hchain
    exact (hall.linked chain hchain).2.steps.imp horigin
  · intro edge hedge hjoin
    have hentered := hjoined.entered edge (hmem edge hjoin hedge)
    obtain ⟨_, -, -, -, -, source, _, hsource, -⟩ := (horigin _ _ hentered).joinable
    have hkey : edge.from_block_id ∈ blocks.keys := (Dict.mem_keys_iff blocks _).mpr (by simp [hsource])
    obtain ⟨chain, hchain, hin⟩ := List.mem_flatten.mp (hflat ▸ hwhole hkey)
    exact ⟨chain, hchain, (hall.linked chain hchain).2.split_of_mem hin hentered⟩

end Joining

section Ordering

variable {merged : List MergedBlock}

theorem ordered_release (progress : Progress) (successors : List String) :
    (successors.foldl (release merged) progress).ordered = progress.ordered := by
  induction successors generalizing progress with
  | nil => rfl
  | cons successor successors ih =>
    rw [List.foldl_cons, ih]
    rfl

theorem mem_of_by_id {block_id : String} {block : MergedBlock}
    (hblock : (by_id merged).get? block_id = some block) : block ∈ merged := by
  obtain ⟨found, hfound, hpair⟩ := List.mem_map.mp (Dict.mem_of_get?_ofPairs hblock)
  obtain rfl := congrArg Prod.snd hpair
  exact hfound

theorem mem_of_drain (before_after : List (String × String)) (unordered : ℕ) (progress : Progress)
    (hbefore : ∀ block ∈ progress.ordered, block ∈ merged) :
    ∀ block ∈ (drain merged before_after unordered progress).ordered, block ∈ merged := by
  induction unordered generalizing progress with
  | zero => exact hbefore
  | succ unordered ih =>
    unfold drain
    split
    · exact hbefore
    · apply ih
      rw [ordered_release]
      intro block hblock
      rcases List.mem_append.mp hblock with hdone | hnew
      · exact hbefore block hdone
      · exact mem_of_by_id (Option.mem_toList.mp hnew)

theorem mem_of_order_relationships {edges : List ContinuityEdge} {ordered : List MergedBlock}
    (hordered : _order_relationships merged edges = .ok ordered) :
    ∀ block ∈ ordered, block ∈ merged := by
  obtain ⟨_, -, hmade⟩ := of_bind_eq_ok hordered
  obtain rfl := Except.ok.inj hmade
  exact mem_of_drain _ _ _ (by simp [start])

end Ordering

section Members

variable (hasher : Hasher) (casefold : String → String)

def owned_blocks (outputs : List ShardOutput) : List ParsedBlock :=
  (outputs.flatMap owned_of).insertionSort reading_order

-- The owned blocks that are no repeated marginals.
def active_blocks (outputs : List ShardOutput) : List ParsedBlock :=
  (owned_blocks outputs).filter
    (·.block_id ∉ _repeated_marginals hasher casefold (owned_blocks outputs))

-- A chain of blocks has a first one.
structure Chain where
  first : ParsedBlock
  rest : List ParsedBlock

namespace Chain

def members (chain : Chain) : List ParsedBlock := chain.first :: chain.rest

def merged (chain : Chain) : MergedBlock := merged_of hasher chain.first chain.members

theorem provenance_merged (chain : Chain) :
    (chain.merged hasher).provenance_block_ids = chain.members.map ParsedBlock.block_id := rfl

end Chain

variable {hasher} {blocks : Dict String ParsedBlock}

theorem exists_chain_of_merge_chain {chain : List String} {block : MergedBlock}
    (hmerge : _merge_chain hasher blocks chain = .ok block) :
    ∃ gathered : Chain, List.Forall₂ (fun block_id member => blocks.get? block_id = some member) chain
      gathered.members ∧ block = gathered.merged hasher := by
  obtain ⟨members, hmembers, hmade⟩ := of_bind_eq_ok hmerge
  have hat := (mapM_eq_ok_iff.mp hmembers).imp fun _ _ hblock => block_at_eq_ok_iff.mp hblock
  cases members with
  | nil => cases hmade
  | cons first rest => exact ⟨⟨first, rest⟩, hat, (Except.ok.inj hmade).symm⟩

-- The chains of ids, and the blocks that they name.
def Names (blocks : Dict String ParsedBlock) (ids : List String) (chain : Chain) : Prop :=
  List.Forall₂ (fun block_id member => blocks.get? block_id = some member) ids chain.members

theorem exists_chains_of_mapM {chains : List (List String)} {unordered : List MergedBlock}
    (hmerge : chains.mapM (_merge_chain hasher blocks) = .ok unordered) :
    ∃ gathered : List Chain, List.Forall₂ (Names blocks) chains gathered ∧
      unordered = gathered.map (Chain.merged hasher) := by
  have hall := mapM_eq_ok_iff.mp hmerge
  clear hmerge
  induction hall with
  | nil => exact ⟨[], List.Forall₂.nil, rfl⟩
  | cons hblock _ ih =>
    obtain ⟨chain, hnames, rfl⟩ := exists_chain_of_merge_chain hblock
    obtain ⟨gathered, hgathered, rfl⟩ := ih
    exact ⟨chain :: gathered, List.Forall₂.cons hnames hgathered, rfl⟩

section Active

variable {active : List ParsedBlock} (hids : (active.map ParsedBlock.block_id).Nodup)

def indexed (active : List ParsedBlock) : Dict String ParsedBlock :=
  Dict.ofPairs (active.map fun block => (block.block_id, block))

include hids in
theorem entries_indexed :
    (indexed active).entries = active.map fun block => (block.block_id, block) :=
  Dict.entries_ofPairs _ (by rwa [List.map_map])

include hids in
theorem get?_indexed {block_id : String} {block : ParsedBlock} :
    (indexed active).get? block_id = some block ↔ block ∈ active ∧ block.block_id = block_id := by
  rw [← Dict.mem_entries_iff, entries_indexed hids, List.mem_map]
  constructor
  · rintro ⟨found, hfound, hpair⟩
    cases hpair
    exact ⟨hfound, rfl⟩
  · rintro ⟨hfound, rfl⟩
    exact ⟨block, hfound, rfl⟩

include hids in
theorem keys_indexed : (indexed active).keys = active.map ParsedBlock.block_id := by
  rw [Dict.keys, entries_indexed hids, List.map_map]
  rfl

include hids in
theorem Names.ids {ids : List String} {chain : Chain} (hnames : Names (indexed active) ids chain) :
    chain.members.map ParsedBlock.block_id = ids := by
  unfold Names at hnames
  generalize chain.members = members at hnames
  induction hnames with
  | nil => rfl
  | cons hblock _ ih => rw [List.map_cons, ih, ((get?_indexed hids).mp hblock).2]

include hids in
theorem chains_of_names {chains : List (List String)} {gathered : List Chain}
    (hnames : List.Forall₂ (Names (indexed active)) chains gathered) :
    chains = gathered.map fun chain => chain.members.map ParsedBlock.block_id := by
  induction hnames with
  | nil => rfl
  | cons hchain _ ih => rw [List.map_cons, ← ih, hchain.ids hids]

include hids in
theorem members_of_names {chains : List (List String)} {gathered : List Chain}
    (hnames : List.Forall₂ (Names (indexed active)) chains gathered) :
    ∀ member ∈ gathered.flatMap Chain.members, member ∈ active := by
  induction hnames with
  | nil => simp
  | @cons ids chain _ _ hchain _ ih =>
    intro member hmember
    rw [List.flatMap_cons] at hmember
    rcases List.mem_append.mp hmember with hin | hlater
    · obtain ⟨position, hposition, rfl⟩ := List.mem_iff_getElem.mp hin
      obtain ⟨hlength, hat⟩ := List.forall₂_iff_get.mp hchain
      exact ((get?_indexed hids).mp (hat position (hlength ▸ hposition) hposition)).1
    · exact ih member hlater

end Active

-- Items of a list whose parts are disjoint.
theorem eq_of_common_part {α β : Type} {items : List α} {parts : α → List β}
    (hnodup : (items.flatMap parts).Nodup) {first second : α} {part : β} (hfirst : first ∈ items)
    (hsecond : second ∈ items) (hin : part ∈ parts first) (halso : part ∈ parts second) :
    first = second := by
  by_contra hne
  have hsymmetric : Std.Symm (Function.onFun List.Disjoint parts) :=
    ⟨fun _ _ hdisjoint => hdisjoint.symm⟩
  exact (List.nodup_flatMap.mp hnodup).2.forall hfirst hsecond hne hin halso

theorem nodup_of_parts {α β : Type} {items : List α} {parts : α → List β}
    (hnodup : (items.flatMap parts).Nodup) (hparts : ∀ item ∈ items, parts item ≠ []) :
    items.Nodup := by
  refine (List.nodup_flatMap.mp hnodup).2.imp_of_mem ?_
  rintro first second hfirst - hdisjoint rfl
  obtain ⟨part, hpart⟩ := List.exists_mem_of_ne_nil _ (hparts first hfirst)
  exact hdisjoint hpart hpart

variable (hasher) in
-- What a merge is made of: chains of the active blocks, along the edges that join.
structure Assembled (arguments : MergeArguments) (result : ContinuityMergeResult)
    (chains : List Chain) : Prop where
  blocks : result.blocks.Perm (chains.map (Chain.merged hasher))
  members : (chains.flatMap Chain.members).Perm (active_blocks hasher casefold arguments.outputs)
  steps : ∀ chain ∈ chains, chain.members.IsChain fun source target =>
    ∃ edge ∈ arguments.edges, IsJoin edge ∧ edge.from_block_id = source.block_id ∧
      edge.to_block_id = target.block_id ∧ Joinable edge.kind source target
  joined : ∀ edge ∈ arguments.edges, IsJoin edge → ∃ chain ∈ chains, ∃ before source target after,
    chain.members = before ++ source :: target :: after ∧ source.block_id = edge.from_block_id ∧
      target.block_id = edge.to_block_id

end Members

section Assembling

variable {hasher : Hasher} {casefold : String → String} {arguments : MergeArguments}
  {result : ContinuityMergeResult}

theorem owned_of_owned_blocks {outputs : List ShardOutput} {owned : List ParsedBlock}
    (howned : _owned_blocks outputs = .ok owned) :
    owned = owned_blocks outputs ∧ (owned.map ParsedBlock.block_id).Nodup := by
  simp only [_owned_blocks, except_bind_eq_ok_iff, refuse_if_eq_ok_iff, exists_const, not_not,
    Except.ok.injEq] at howned
  obtain ⟨-, hnodup, rfl⟩ := howned
  exact ⟨rfl, ((List.perm_insertionSort _ _).map _).nodup_iff.mpr hnodup⟩

-- A conserved merge holds every chain once.
theorem perm_of_conserved {unordered ordered : List MergedBlock} {active : List String}
    (hwithin : ∀ block ∈ ordered, block ∈ unordered)
    (hparts : ∀ block ∈ unordered, block.provenance_block_ids ≠ [])
    (hnodup : (unordered.flatMap MergedBlock.provenance_block_ids).Nodup)
    (hknown : ∀ block_id ∈ unordered.flatMap MergedBlock.provenance_block_ids, block_id ∈ active)
    (hcovers : ∀ block_id ∈ active, block_id ∈ ordered.flatMap MergedBlock.provenance_block_ids)
    (honce : (ordered.flatMap MergedBlock.provenance_block_ids).Nodup) :
    ordered.Perm unordered := by
  have hordered := nodup_of_parts honce fun block hblock => hparts block (hwithin block hblock)
  refine (List.perm_ext_iff_of_nodup hordered (nodup_of_parts hnodup hparts)).mpr fun block =>
    ⟨hwithin block, fun hblock => ?_⟩
  obtain ⟨block_id, hin⟩ := List.exists_mem_of_ne_nil _ (hparts block hblock)
  obtain ⟨holder, hholder, halso⟩ := List.mem_flatMap.mp
    (hcovers block_id (hknown block_id (List.mem_flatMap.mpr ⟨block, hblock, hin⟩)))
  rw [eq_of_common_part hnodup hblock (hwithin holder hholder) hin halso]
  exact hholder

theorem conserved_of_validate {owned_blocks : List ParsedBlock} {merged_blocks : List MergedBlock}
    {dropped expected_page_ids : List String} {markdown : String}
    (hvalid : _validate owned_blocks merged_blocks dropped expected_page_ids markdown = []) :
    conserved owned_blocks merged_blocks dropped := by
  have hnone := (List.perm_insertionSort (· ≤ ·) _).symm.trans (List.Perm.of_eq hvalid)
  have hflags := List.map_eq_nil_iff.mp (List.perm_nil.mp hnone)
  have hflag := List.filter_eq_nil_iff.mp hflags _ List.mem_cons_self
  simpa using hflag

-- The steps of a merge that returned.
structure Ran (hasher : Hasher) (casefold : String → String) (arguments : MergeArguments)
    (result : ContinuityMergeResult) (active : List ParsedBlock) (dropped : List String)
    (chains : List (List String)) (unordered : List MergedBlock) : Prop where
  related : _validate_relationship_edges (indexed active) dropped arguments.edges = .ok ()
  chained : _join_chains hasher casefold (indexed active) (arguments.edges.filter fun edge =>
    edge.from_block_id ∈ (indexed active).keys ∧ edge.to_block_id ∈ (indexed active).keys) =
      .ok chains
  gathered : chains.mapM (_merge_chain hasher (indexed active)) = .ok unordered
  within : ∀ block ∈ result.blocks, block ∈ unordered
  accepted : result.accepted = (_validate (owned_blocks arguments.outputs) result.blocks dropped
    arguments.expected_page_ids (_markdown result.blocks)).isEmpty
  markdown : result.accepted = true → result.markdown = some (_markdown result.blocks)

theorem ran_of_merged (hmerged : merged hasher casefold arguments = .ok result) :
    ((owned_blocks arguments.outputs).map ParsedBlock.block_id).Nodup ∧
      ∃ chains unordered, Ran hasher casefold arguments result
        (active_blocks hasher casefold arguments.outputs)
        (_repeated_marginals hasher casefold (owned_blocks arguments.outputs)) chains unordered := by
  simp only [merged, except_bind_eq_ok_iff, refuse_if_eq_ok_iff, exists_const] at hmerged
  obtain ⟨owned, howned, -, _, hrelated, chains, hchained, unordered, hgathered, ordered, hordered,
    hmade⟩ := hmerged
  obtain ⟨rfl, hids⟩ := owned_of_owned_blocks howned
  obtain rfl := Except.ok.inj hmade
  refine ⟨hids, chains, unordered, hrelated, hchained, hgathered, ?_, rfl, fun haccepted => ?_⟩
  · intro block hblock
    exact (List.perm_insertionSort merged_order unordered).mem_iff.mp
      (mem_of_order_relationships hordered block hblock)
  · exact if_pos haccepted

theorem keys_of_related {blocks : Dict String ParsedBlock} {dropped : List String}
    {edges : List ContinuityEdge} (hrelated : _validate_relationship_edges blocks dropped edges = .ok ())
    {edge : ContinuityEdge} (hedge : edge ∈ edges) (hjoin : IsJoin edge) :
    edge.from_block_id ∈ blocks.keys ∧ edge.to_block_id ∈ blocks.keys := by
  have hkind : edge.kind ≠ .DUPLICATE_MARGINAL := by
    rintro hkind
    rcases hjoin with hjoin | hjoin
    · rw [hkind] at hjoin
      cases hjoin
    · rw [hkind] at hjoin
      cases hjoin
  unfold _validate_relationship_edges at hrelated
  induction edges with
  | nil => cases hedge
  | cons first edges ih =>
    obtain ⟨_, hfirst, hrest⟩ := of_bind_eq_ok hrelated
    rcases List.mem_cons.mp hedge with rfl | hlater
    · rw [check_relationship, if_neg hkind] at hfirst
      obtain ⟨_, hpresent, -⟩ := of_bind_eq_ok hfirst
      simpa [not_or] using refuse_if_eq_ok_iff.mp hpresent
    · exact ih hrest hlater

theorem assembled_of_merged (hmerged : merged hasher casefold arguments = .ok result)
    (haccepted : result.accepted = true) :
    ∃ chains : List Chain, Assembled hasher casefold arguments result chains := by
  obtain ⟨hids, chains, unordered, hran⟩ := ran_of_merged hmerged
  have hactive : ((active_blocks hasher casefold arguments.outputs).map ParsedBlock.block_id).Nodup :=
    (List.filter_sublist.map _).nodup hids
  have hchained := chained_of_join_chains hran.chained
  obtain ⟨gathered, hnames, hunordered⟩ := exists_chains_of_mapM hran.gathered
  have hids_of := chains_of_names hactive hnames
  have hflat : (gathered.flatMap Chain.members).map ParsedBlock.block_id = chains.flatten := by
    rw [hids_of, List.map_flatMap]
    rfl
  have hwithin := members_of_names hactive hnames
  have hmembers : (gathered.flatMap Chain.members).Nodup := by
    apply List.Nodup.of_map ParsedBlock.block_id
    rw [hflat]
    exact hchained.nodup
  have hkeys (block_id : String) : block_id ∈ chains.flatten ↔
      ∃ block ∈ active_blocks hasher casefold arguments.outputs, block.block_id = block_id := by
    rw [hchained.covers, keys_indexed hactive, List.mem_map]
  refine ⟨gathered, ?_, ?_, ?_, ?_⟩
  · rw [← hunordered]
    have hprovenance : unordered.flatMap MergedBlock.provenance_block_ids = chains.flatten := by
      rw [hunordered, List.flatMap_map, ← hflat, List.map_flatMap]
      rfl
    obtain ⟨hcovers, honce⟩ := conserved_of_validate
      (List.isEmpty_iff.mp (hran.accepted.symm.trans haccepted))
    apply perm_of_conserved hran.within ?_ (hprovenance ▸ hchained.nodup) ?_
      (fun block_id hactive_id => (hcovers block_id).mpr hactive_id) honce
    · intro block hblock
      rw [hunordered] at hblock
      obtain ⟨chain, -, rfl⟩ := List.mem_map.mp hblock
      simp [Chain.provenance_merged, Chain.members]
    · intro block_id hin
      rw [hprovenance] at hin
      obtain ⟨block, hblock, rfl⟩ := (hkeys block_id).mp hin
      obtain ⟨howned, hkept⟩ := List.mem_filter.mp hblock
      exact List.mem_filter.mpr ⟨List.mem_map_of_mem howned, hkept⟩
  · refine (List.perm_ext_iff_of_nodup hmembers (List.Nodup.of_map _ hactive)).mpr fun block =>
      ⟨hwithin block, fun hblock => ?_⟩
    have hin : block.block_id ∈ chains.flatten := (hkeys _).mpr ⟨block, hblock, rfl⟩
    rw [← hflat] at hin
    obtain ⟨member, hmember, hsame⟩ := List.mem_map.mp hin
    rw [← List.inj_on_of_nodup_map hactive (hwithin member hmember) hblock hsame]
    exact hmember
  · intro chain hchain
    have hsteps := hchained.steps _ (hids_of ▸ List.mem_map_of_mem hchain)
    have hin (member : ParsedBlock) (hmember : member ∈ chain.members) :=
      hwithin member (List.mem_flatMap.mpr ⟨chain, hchain, hmember⟩)
    refine ((List.isChain_map _).mp hsteps).imp_of_mem_imp fun source target hsource htarget hstep => ?_
    obtain ⟨edge, hedge, hjoin, hfrom, hto, first, second, hfirst, hsecond, hjoinable⟩ :=
      hstep.joinable
    obtain ⟨hfirst_in, hfirst_id⟩ := (get?_indexed hactive).mp hfirst
    obtain ⟨hsecond_in, hsecond_id⟩ := (get?_indexed hactive).mp hsecond
    rw [List.inj_on_of_nodup_map hactive hfirst_in (hin source hsource) hfirst_id,
      List.inj_on_of_nodup_map hactive hsecond_in (hin target htarget) hsecond_id] at hjoinable
    exact ⟨edge, List.mem_of_mem_filter hedge, hjoin, hfrom, hto, hjoinable⟩
  · intro edge hedge hjoin
    obtain ⟨ids, hin, before, after, hsplit⟩ := hchained.joined edge
      (List.mem_filter.mpr ⟨hedge, decide_eq_true (keys_of_related hran.related hedge hjoin)⟩) hjoin
    rw [hids_of] at hin
    obtain ⟨chain, hchain, rfl⟩ := List.mem_map.mp hin
    obtain ⟨first, rest, hmembers, -, hrest⟩ := List.map_eq_append_iff.mp hsplit
    obtain ⟨source, others, rfl, hsource, hothers⟩ := List.map_eq_cons_iff.mp hrest
    obtain ⟨target, last, rfl, htarget, -⟩ := List.map_eq_cons_iff.mp hothers
    exact ⟨chain, hchain, first, source, target, last, hmembers, hsource, htarget⟩

end Assembling

section Merges

variable (hasher : Hasher) (casefold : String → String)

-- The mergers that calls of `merge` lead to; another holder of the journal may
-- append to it in between.
inductive Reached : ContinuityMerger → Prop
  | new (events : Option EventJournal) : Reached { events := events }
  | merged (merger : ContinuityMerger) (arguments : MergeArguments) (hbefore : Reached merger) :
      Reached (merge hasher casefold arguments merger).2
  | appended (merger : ContinuityMerger) (events : Option EventJournal) (hbefore : Reached merger) :
      Reached { merger with events := events }

-- What is remembered has been computed from the same input.
def Computed (results : Dict String (String × ContinuityMergeResult)) : Prop :=
  ∀ key digest result, results.get? key = some (digest, result) →
    ∃ asked, input_digest hasher asked = digest ∧ merged hasher casefold asked = .ok result

variable {hasher casefold} {merger : ContinuityMerger}

theorem ends_emit_results (event_type aggregate_id : String) (payload : List (String × Json))
    (occurred_at : Datetime) (idempotency_key : String) :
    Ends (fun _ left => left.results = merger.results) (fun _ left => left.results = merger.results)
      (emit hasher event_type aggregate_id payload occurred_at idempotency_key) merger := by
  simp only [emit, ends_bind, ends_self]
  cases merger.events with
  | none => exact rfl
  | some journal =>
    simp only [ends_bind, ends_check, ends_assign]
    exact ⟨fun _ _ => trivial, fun _ _ => trivial⟩

-- The arguments that a returned result has been computed from: those of the call,
-- unless it repeats an earlier one.
def ComputedFrom (hasher : Hasher) (casefold : String → String) (merger : ContinuityMerger)
    (arguments asked : MergeArguments) (result : ContinuityMergeResult) : Prop :=
  input_digest hasher asked = input_digest hasher arguments ∧
    merged hasher casefold asked = .ok result ∧
    (merger.results.get? arguments.idempotency_key = none → asked = arguments)

theorem ends_merge_computed (hcomputed : Computed hasher casefold merger.results)
    (arguments : MergeArguments) :
    Ends (fun result left => Computed hasher casefold left.results ∧
        ∃ asked, ComputedFrom hasher casefold merger arguments asked result)
      (fun _ left => Computed hasher casefold left.results) (merge hasher casefold arguments)
      merger := by
  unfold merge
  rw [ends_bind, ends_self]
  cases hget : merger.results.get? arguments.idempotency_key with
  | some kept =>
    obtain ⟨existing_digest, result⟩ := kept
    simp only [ends_bind, ends_require, ends_returns]
    refine ⟨fun hsame => ⟨hcomputed, ?_⟩, fun _ => hcomputed⟩
    obtain ⟨asked, hdigest, hmerged⟩ := hcomputed _ _ _ hget
    refine ⟨asked, hdigest.trans hsame, hmerged, fun hnone => ?_⟩
    rw [hget] at hnone
    cases hnone
  | none =>
    dsimp only
    rw [ends_bind]
    apply (ends_emit_results _ _ _ _ _).imp
    · intro _ begun hbegun
      simp only [ends_bind, ends_check, ends_assign]
      refine ⟨fun result hmerged => ?_, fun _ _ => hbegun ▸ hcomputed⟩
      have hkept : Computed hasher casefold
          (begun.results.set arguments.idempotency_key (input_digest hasher arguments, result)) := by
        intro key digest found hfound
        rw [hbegun, Dict.get?_set] at hfound
        split at hfound
        · cases hfound
          exact ⟨arguments, rfl, hmerged⟩
        · exact hcomputed key digest found hfound
      apply (ends_emit_results _ _ _ _ _).imp
      · intro _ left hleft
        rw [ends_returns, hleft]
        exact ⟨hkept, arguments, rfl, hmerged, fun _ => rfl⟩
      · intro _ left hleft
        rw [hleft]
        exact hkept
    · intro _ left hleft
      rw [hleft]
      exact hcomputed

theorem Reached.computed (hreached : Reached hasher casefold merger) :
    Computed hasher casefold merger.results := by
  induction hreached with
  | new events =>
    intro key digest result hget
    cases hget
  | merged merger arguments _ ih =>
    exact ((ends_merge_computed ih arguments).then fun _ _ hleft => hleft.1).state
  | appended merger events _ ih => exact ih

theorem computed_of_merge (hreached : Reached hasher casefold merger) {arguments : MergeArguments}
    {result : ContinuityMergeResult}
    (hmerge : (merge hasher casefold arguments merger).1 = .ok result) :
    ∃ asked, ComputedFrom hasher casefold merger arguments asked result := by
  have hends := ends_merge_computed hreached.computed arguments
  unfold Ends at hends
  cases hrun : merge hasher casefold arguments merger with
  | mk outcome left =>
    rw [hrun] at hends hmerge
    obtain rfl : outcome = .ok result := hmerge
    exact hends.2

end Merges

end ContinuityMerger

end KnowledgeCompiler.Parallel
