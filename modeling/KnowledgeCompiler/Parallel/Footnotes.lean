import KnowledgeCompiler.Parallel.SourceOrder

namespace KnowledgeCompiler.Parallel

open Lib Method

namespace ContinuityMerger

-- The label by which the markdown defines a footnote.
def footnote_label (block : MergedBlock) : String :=
  "[^source-" ++ String.ofList (block.merged_block_id.toList.take 8) ++ "]"

def footnotes (blocks : List MergedBlock) : List MergedBlock := blocks.filter (·.kind = .FOOTNOTE)

def source_footnotes (blocks : List ParsedBlock) : List ParsedBlock :=
  blocks.filter (·.kind = .FOOTNOTE)

section Digits

variable (hasher : Hasher)

-- The id of a block that is merged alone, as `stable_id` makes it.
def single_id (block : ParsedBlock) : String :=
  stable_id hasher "block"
    [strings_json [block.block_id], .str (canonical_sha256 hasher (.str block.text))]

-- What the label keeps of the hash: its first two digits.
def kept_digits (block : ParsedBlock) : List Char :=
  (canonical_sha256 hasher
    (.obj [("namespace", .str "block"), ("parts", .arr
      [strings_json [block.block_id], .str (canonical_sha256 hasher (.str block.text))])])).toList.take 2

theorem take_single_id (block : ParsedBlock) :
    (single_id hasher block).toList.take 8 = "block_".toList ++ kept_digits hasher block := by
  simp [single_id, stable_id, kept_digits, List.take_take]

end Digits

section Labels

variable {hasher : Hasher} {casefold : String → String} {arguments : MergeArguments}
  {result : ContinuityMergeResult}

section Chains

variable {chain : Chain} {edges : List ContinuityEdge}
  (hsteps : chain.members.IsChain fun source target =>
    ∃ edge ∈ edges, IsJoin edge ∧ edge.from_block_id = source.block_id ∧
      edge.to_block_id = target.block_id ∧ Joinable edge.kind source target)

-- No edge joins a footnote: it is merged alone.
include hsteps in
theorem members_of_footnote (hkind : chain.first.kind = .FOOTNOTE) : chain.members = [chain.first] := by
  obtain ⟨first, rest⟩ := chain
  cases rest with
  | nil => rfl
  | cons second rest =>
    obtain ⟨edge, -, -, -, -, hjoinable⟩ := (List.isChain_cons_cons.mp hsteps).1
    have hmem := hjoinable.alike.2
    rw [hkind] at hmem
    simp at hmem

include hsteps in
theorem footnotes_of_members :
    source_footnotes chain.members = if chain.first.kind = .FOOTNOTE then [chain.first] else [] := by
  by_cases hkind : chain.first.kind = .FOOTNOTE
  · rw [members_of_footnote hsteps hkind, if_pos hkind]
    simp [source_footnotes, hkind]
  · have halike : chain.members.IsChain fun source target => source.kind = target.kind :=
      hsteps.imp fun _ _ hstep => by
        obtain ⟨edge, -, -, -, -, hjoinable⟩ := hstep
        exact hjoinable.alike.1
    have htrans : IsTrans ParsedBlock fun source target => source.kind = target.kind :=
      ⟨fun _ _ _ => Eq.trans⟩
    have hkinds := (List.pairwise_cons.mp (List.isChain_iff_pairwise.mp halike)).1
    rw [if_neg hkind]
    refine List.filter_eq_nil_iff.mpr fun member hmember => ?_
    rcases List.mem_cons.mp hmember with rfl | hlater
    · simpa using hkind
    · simpa [← hkinds member hlater] using hkind

end Chains

theorem label_of_footnote {chain : Chain} (hkind : chain.first.kind = .FOOTNOTE)
    (hrest : chain.members = [chain.first]) :
    footnote_label (chain.merged hasher) =
      "[^source-" ++ String.ofList ("block_".toList ++ kept_digits hasher chain.first) ++ "]" := by
  have htext : chain_text chain.first chain.members = chain.first.text := by
    simp [chain_text, hkind]
  have hid : (chain.merged hasher).merged_block_id = stable_id hasher "block"
      [strings_json (chain.members.map ParsedBlock.block_id),
        .str (canonical_sha256 hasher (.str (chain_text chain.first chain.members)))] := rfl
  have hsingle : (chain.merged hasher).merged_block_id = single_id hasher chain.first := by
    rw [hid, htext, hrest]
    rfl
  rw [footnote_label, hsingle, take_single_id]

theorem labels_of_chains {chains : List Chain} (hsingle : ∀ chain ∈ chains,
      source_footnotes chain.members = if chain.first.kind = .FOOTNOTE then [chain.first] else [])
    (halone : ∀ chain ∈ chains, chain.first.kind = .FOOTNOTE → chain.members = [chain.first]) :
    (footnotes (chains.map (Chain.merged hasher))).map footnote_label =
      (source_footnotes (chains.flatMap Chain.members)).map fun block =>
        "[^source-" ++ String.ofList ("block_".toList ++ kept_digits hasher block) ++ "]" := by
  induction chains with
  | nil => rfl
  | cons chain chains ih =>
    have hrest := ih (fun other hother => hsingle other (List.mem_cons_of_mem _ hother))
      (fun other hother => halone other (List.mem_cons_of_mem _ hother))
    have hchain := hsingle chain List.mem_cons_self
    unfold footnotes source_footnotes at *
    rw [List.map_cons, List.flatMap_cons, List.filter_append, List.map_append, hchain, ← hrest]
    have hkind : (chain.merged hasher).kind = chain.first.kind := rfl
    by_cases hfootnote : chain.first.kind = .FOOTNOTE
    · rw [List.filter_cons_of_pos (by simpa [hkind] using hfootnote), if_pos hfootnote,
        List.map_cons, label_of_footnote hfootnote (halone chain List.mem_cons_self hfootnote)]
      rfl
    · rw [List.filter_cons_of_neg (by simpa [hkind] using hfootnote), if_neg hfootnote]
      rfl

theorem footnote_labels_iff (hmerged : merged hasher casefold arguments = .ok result)
    (haccepted : result.accepted = true) :
    ((footnotes result.blocks).map footnote_label).Nodup ↔
      ((source_footnotes (active_blocks hasher casefold arguments.outputs)).map
        (kept_digits hasher)).Nodup := by
  obtain ⟨chains, hmade⟩ := assembled_of_merged hmerged haccepted
  have hlabels := @labels_of_chains hasher _
    (fun chain hchain => footnotes_of_members (hmade.steps chain hchain))
    (fun chain hchain hkind => members_of_footnote (hmade.steps chain hchain) hkind)
  have hinjective : Function.Injective fun digits : List Char =>
      "[^source-" ++ String.ofList ("block_".toList ++ digits) ++ "]" := by
    intro first second hsame
    simpa using congrArg String.toList hsame
  have hdigits : (source_footnotes (chains.flatMap Chain.members)).map (fun block =>
      "[^source-" ++ String.ofList ("block_".toList ++ kept_digits hasher block) ++ "]") =
        ((source_footnotes (chains.flatMap Chain.members)).map (kept_digits hasher)).map fun digits =>
          "[^source-" ++ String.ofList ("block_".toList ++ digits) ++ "]" := by
    rw [List.map_map]
    rfl
  calc ((footnotes result.blocks).map footnote_label).Nodup
      ↔ ((footnotes (chains.map (Chain.merged hasher))).map footnote_label).Nodup :=
        ((hmade.blocks.filter _).map _).nodup_iff
    _ ↔ ((source_footnotes (chains.flatMap Chain.members)).map (kept_digits hasher)).Nodup := by
        rw [hlabels, hdigits, List.nodup_map_iff hinjective]
    _ ↔ ((source_footnotes (active_blocks hasher casefold arguments.outputs)).map
          (kept_digits hasher)).Nodup := ((hmade.members.filter _).map _).nodup_iff

-- The labels of an accepted merge are distinct exactly when the first two digits of
-- the hashes of its footnotes are.
theorem accepted_merge_footnotes_iff (merger : ContinuityMerger) (arguments : MergeArguments)
    (result : ContinuityMergeResult) (hreached : Reached hasher casefold merger)
    (hmerge : (merge hasher casefold arguments merger).1 = .ok result)
    (haccepted : result.accepted = true) :
    ∃ asked, ComputedFrom hasher casefold merger arguments asked result ∧
      result.markdown = some (_markdown result.blocks) ∧
      (((footnotes result.blocks).map footnote_label).Nodup ↔
        ((source_footnotes (active_blocks hasher casefold asked.outputs)).map
          (kept_digits hasher)).Nodup) := by
  obtain ⟨asked, hcomputed⟩ := computed_of_merge hreached hmerge
  obtain ⟨-, chains, unordered, hran⟩ := ran_of_merged hcomputed.2.1
  exact ⟨asked, hcomputed, hran.markdown haccepted, footnote_labels_iff hcomputed.2.1 haccepted⟩

-- Two digits tell 256 footnotes apart and no more.
theorem length_le_of_nodup_kept_digits (hdigits : ∀ bytes, (hasher.hexdigest bytes).length = 64)
    {blocks : List ParsedBlock} (hnodup : (blocks.map (kept_digits hasher)).Nodup) :
    blocks.length ≤ 256 := by
  have hpairs : blocks.map (kept_digits hasher) ⊆ (List.range 16).flatMap fun high =>
      (List.range 16).map fun low => [Nat.digitChar high, Nat.digitChar low] := by
    intro digits hmem
    obtain ⟨block, -, rfl⟩ := List.mem_map.mp hmem
    unfold kept_digits canonical_sha256
    generalize Utf8.encode _ = bytes
    have hhex := hasher.hex bytes
    have hlength := hdigits bytes
    rw [← String.length_toList] at hlength
    cases hchars : (hasher.hexdigest bytes).toList with
    | nil =>
      rw [hchars] at hlength
      cases hlength
    | cons first rest =>
      cases rest with
      | nil =>
        rw [hchars] at hlength
        cases hlength
      | cons second rest =>
        rw [hchars] at hhex
        obtain ⟨high, hhigh, rfl⟩ := hhex first (by simp)
        obtain ⟨low, hlow, rfl⟩ := hhex second (by simp)
        simp only [List.take_succ_cons, List.take_zero, List.mem_flatMap, List.mem_map, List.mem_range]
        exact ⟨high, hhigh, low, hlow, rfl⟩
  have hle := (List.subperm_of_subset hnodup hpairs).length_le
  have hall : ((List.range 16).flatMap fun high => (List.range 16).map fun low =>
      [Nat.digitChar high, Nat.digitChar low]).length = 256 := by simp
  rwa [List.length_map, hall] at hle

theorem not_nodup_of_many_footnotes (hdigits : ∀ bytes, (hasher.hexdigest bytes).length = 64)
    (hmerged : merged hasher casefold arguments = .ok result) (haccepted : result.accepted = true)
    (hmany : 256 < (source_footnotes (active_blocks hasher casefold arguments.outputs)).length) :
    ¬((footnotes result.blocks).map footnote_label).Nodup := by
  intro hnodup
  have hle := length_le_of_nodup_kept_digits hdigits
    ((footnote_labels_iff hmerged haccepted).mp hnodup)
  omega

end Labels

end ContinuityMerger

open ContinuityMerger

def first_footnote : ParsedBlock where
  block_id := "note-29"
  page_id := "page-1"
  page_index0 := 0
  order := 0
  kind := .FOOTNOTE
  text := "See section 29."
  source_refs := ["ref-1"]
  named := by decide
  evidenced := by decide
  headed := by decide
  tabled := by decide

def second_footnote : ParsedBlock :=
  { first_footnote with
    block_id := "note-30"
    order := 1
    text := "See section 30."
    named := by decide
    evidenced := by decide }

def footnote_output : ShardOutput where
  shard_id := "shard-1"
  primary_page_ids := ["page-1"]
  context_page_ids := []
  blocks := [first_footnote, second_footnote]
  named := one_page_named
  separate := one_page_separate
  within := by decide

def footnote_merge : MergeArguments where
  document_version_id := "ver-1"
  outputs := [footnote_output]
  edges := []
  expected_page_ids := ["page-1"]
  occurred_at := dispatched_at
  idempotency_key := "merge-1"

theorem footnote_merge_accepted : ∃ result,
    merged sha256 (fun text => text) footnote_merge = .ok result ∧ result.accepted = true ∧
      (result.blocks.map MergedBlock.merged_block_id).Nodup ∧
      (footnotes result.blocks).map footnote_label = ["[^source-block_9f]", "[^source-block_9f]"] := by
  have hrun : ((merged sha256 (fun text => text) footnote_merge).toOption.map fun result =>
      (result.accepted, decide (result.blocks.map MergedBlock.merged_block_id).Nodup,
        (footnotes result.blocks).map footnote_label)) =
      some (true, true, ["[^source-block_9f]", "[^source-block_9f]"]) := by decide +kernel
  obtain ⟨result, hresult, hvalues⟩ := Option.map_eq_some_iff.mp hrun
  simp only [Prod.mk.injEq, decide_eq_true_eq] at hvalues
  exact ⟨result, eq_ok_of_toOption hresult, hvalues⟩

-- Two footnotes whose ids differ after the second digit: one label defines both.
theorem two_footnotes_one_label : ∃ result,
    (merge sha256 (fun text => text) footnote_merge {}).1 = .ok result ∧ result.accepted = true ∧
      (result.blocks.map MergedBlock.merged_block_id).Nodup ∧
      ¬((footnotes result.blocks).map footnote_label).Nodup := by
  obtain ⟨result, hmerged, haccepted, hids, hlabels⟩ := footnote_merge_accepted
  refine ⟨result, merge_new hmerged, haccepted, hids, ?_⟩
  rw [hlabels]
  decide

theorem footnote_merge_iff : ∃ result asked,
    ComputedFrom sha256 (fun text => text) {} footnote_merge asked result ∧
      result.markdown = some (_markdown result.blocks) ∧
      (((footnotes result.blocks).map footnote_label).Nodup ↔
        ((source_footnotes (active_blocks sha256 (fun text => text) asked.outputs)).map
          (kept_digits sha256)).Nodup) := by
  obtain ⟨result, hmerged, haccepted, -⟩ := footnote_merge_accepted
  exact ⟨result, accepted_merge_footnotes_iff {} footnote_merge result (Reached.new none)
    (merge_new hmerged) haccepted⟩

end KnowledgeCompiler.Parallel
