import KnowledgeCompiler.Exporters.Digests
import KnowledgeCompiler.Exporters.Units
import KnowledgeCompiler.Lib.Binary64
import KnowledgeCompiler.Lib.Lists
import KnowledgeCompiler.Lib.Method
import KnowledgeCompiler.Lib.Utf8

namespace KnowledgeCompiler.Exporters

open Lib Method

inductive ChunkFault
  | refused (reason : String)
  | overflow
  | no_blocks
  | invalid
deriving DecidableEq

structure ChunkLimits where
  target_tokens : Int
  max_tokens : Int
  overlap_ratio : Binary64

-- `max(1, int(target_tokens * overlap_ratio))`
def ChunkLimits.overlap_target (limits : ChunkLimits) : Except ChunkFault Int :=
  match Binary64.ofNat? limits.target_tokens.toNat with
  | none => .error .overflow
  | some target =>
      match (target.mul limits.overlap_ratio).toInt? with
      | none => .error .overflow
      | some found => .ok (max 1 found)

section Grouping

variable (tokenizer : Tokenizer) (limits : ChunkLimits)

structure Overlap where
  units : List ChunkUnit
  tokens : Int

def over_budget (target unit_tokens : Int) (overlap : Overlap) (previous : ChunkUnit) : Prop :=
  target * 2 < tokenizer.count previous.text ∨
    limits.max_tokens < overlap.tokens + tokenizer.count previous.text + unit_tokens

instance (target unit_tokens : Int) (overlap : Overlap) :
    DecidablePred (over_budget tokenizer limits target unit_tokens overlap) :=
  fun _ => inferInstanceAs (Decidable (_ ∨ _))

def is_table (unit : ChunkUnit) : Bool :=
  BlockType.table.value.toList.isPrefixOf unit.content_type.toList

-- The loop over the units of the full chunk, the last of them first.
def carry (target unit_tokens : Int) (overlap : Overlap) : List ChunkUnit → Overlap
  | [] => overlap
  | previous :: rest =>
      if is_table previous then carry target unit_tokens overlap rest
      else if over_budget tokenizer limits target unit_tokens overlap previous then
        carry target unit_tokens overlap rest
      else
        let overlap := ⟨previous :: overlap.units, overlap.tokens + tokenizer.count previous.text⟩
        if target ≤ overlap.tokens then overlap else carry target unit_tokens overlap rest

structure Grouping where
  groups : List (List ChunkUnit)
  current : List ChunkUnit
  current_tokens : Int

def Grouping.start : Grouping := ⟨[], [], 0⟩

def group_unit (grouping : Grouping) (unit : ChunkUnit) : Except ChunkFault Grouping :=
  let unit_tokens := tokenizer.count unit.text
  if unit.standalone then
    .ok {
      groups := grouping.groups ++ Packing.closed grouping.current ++ [[unit]]
      current := []
      current_tokens := if grouping.current = [] then grouping.current_tokens else 0 }
  else if grouping.current ≠ [] ∧ limits.target_tokens < grouping.current_tokens + unit_tokens then do
    let target ← limits.overlap_target
    let overlap := carry tokenizer limits target unit_tokens ⟨[], 0⟩ grouping.current.reverse
    return {
      groups := grouping.groups ++ [grouping.current]
      current := overlap.units ++ [unit]
      current_tokens := overlap.tokens + unit_tokens }
  else
    .ok { grouping with
      current := grouping.current ++ [unit]
      current_tokens := grouping.current_tokens + unit_tokens }

def chunk_groups (units : List ChunkUnit) : Except ChunkFault (List (List ChunkUnit)) := do
  let grouping ← units.foldlM (group_unit tokenizer limits) Grouping.start
  return grouping.groups ++ Packing.closed grouping.current

end Grouping

structure RagChunk where
  chunk_id : String
  document_id : String
  document_version : String
  title : List Char
  heading_path : List (List Char)
  content : List Char
  content_type : String
  language : List Char
  token_count : Int
  tokenizer : String
  source_refs : List SourceRef
  origin : BlockOrigin
  content_layer : ContentLayer
  quality : Option ℚ
  previous_chunk_id : Option String
  next_chunk_id : Option String
  content_hash : String

-- The checks of the fields that the drafts do not meet by themselves.
def RagChunk.valid (chunk : RagChunk) : Bool :=
  chunk.title ≠ [] && chunk.content ≠ [] && chunk.language ≠ [] && 1 ≤ chunk.token_count &&
    chunk.tokenizer ≠ "" && !chunk.source_refs.isEmpty

section Drafts

def _ORIGIN_RANK : BlockOrigin → Nat
  | .native_extracted => 0
  | .ocr_extracted => 1
  | .rule_reconstructed => 2
  | .ai_reconstructed => 3
  | .ai_summarized => 4
  | .ai_inferred => 5
  | .user_edited => 6

def _LAYER_RANK : ContentLayer → Nat
  | .source => 0
  | .extracted => 1
  | .structured => 2
  | .knowledge => 3
  | .index => 4

-- `max(items, key=rank)`: the first of the highest.
def highest {α : Type} (rank : α → Nat) : List α → Option α
  | [] => none
  | item :: rest => some (rest.foldl (fun best other => if rank best < rank other then other else best) item)

structure RefIdentity where
  document_version_id : String
  page_index0 : Nat
  bbox1000 : Option (Nat × Nat × Nat × Nat)
  time_start_ms : Option Nat
  time_end_ms : Option Nat
deriving DecidableEq

def SourceRef.identity (ref : SourceRef) : RefIdentity :=
  ⟨ref.document_version_id, ref.page_index0, ref.bbox1000, ref.time_start_ms, ref.time_end_ms⟩

def _dedupe_refs (blocks : List CanonicalBlock) : List SourceRef :=
  (blocks.flatMap (·.source_refs)).foldl
    (fun (result : List SourceRef) (ref : SourceRef) =>
      if result.any (fun known => known.identity = ref.identity) then result else result ++ [ref])
    []

def group_heading_path (group : List ChunkUnit) : List (List Char) :=
  ((group.reverse.map (·.heading_path)).find? (· ≠ [])).getD []

def group_content_type (group : List ChunkUnit) : String :=
  match (group.map (·.content_type)).dedup with
  | [content_type] => content_type
  | _ => "mixed"

def chunk_text (group : List ChunkUnit) : List Char :=
  Text.strip (join "\n\n" (group.map (·.text)))

variable (hasher : Hasher) (tokenizer : Tokenizer) (document : CanonicalDocument)

def text_digest (text : List Char) : String :=
  sha256_digest hasher (Utf8.encode text).data.toList

def chunk_id (index : Nat) (text : List Char) : String :=
  let digest := text_digest hasher (document.document_id.toList ++ Char.ofNat 0 ::
    (document.document_version_id.toList ++ Char.ofNat 0 ::
      ((toString index).toList ++ Char.ofNat 0 :: text)))
  "urn:akmp:chunk:" ++ String.ofList ((digest.toList.drop 7).take 24)

def id_at (groups : List (List ChunkUnit)) (position : Nat) : Option String :=
  groups[position]?.map (fun group => chunk_id hasher document position (chunk_text group))

def id_before (groups : List (List ChunkUnit)) : Nat → Option String
  | 0 => none
  | position + 1 => id_at hasher document groups position

-- A draft, and its neighbours' ids where there are neighbours.
def rag_chunk (language : List Char) (groups : List (List ChunkUnit)) (index : Nat)
    (group : List ChunkUnit) : Except ChunkFault RagChunk :=
  let text := chunk_text group
  let blocks := group.flatMap (·.blocks)
  let path := group_heading_path group
  match highest _ORIGIN_RANK (blocks.map (·.origin)),
      highest _LAYER_RANK (blocks.map (·.content_layer)) with
  | some origin, some content_layer =>
      let chunk : RagChunk := {
        chunk_id := chunk_id hasher document index text
        document_id := document.document_id
        document_version := document.document_version_id
        title := path.getLast?.getD document.title
        heading_path := path
        content := text
        content_type := group_content_type group
        language := language
        token_count := tokenizer.count text
        tokenizer := tokenizer.name
        source_refs := _dedupe_refs blocks
        origin, content_layer
        quality := (blocks.filterMap (·.confidence)).min?
        previous_chunk_id := id_before hasher document groups index
        next_chunk_id := id_at hasher document groups (index + 1)
        content_hash := text_digest hasher text }
      if chunk.valid then .ok chunk else .error .invalid
  | _, _ => .error .no_blocks

-- With a language that is stripped of the blanks around it.
def adaptive_chunks (limits : ChunkLimits) (language : List Char) :
    Except ChunkFault (List RagChunk) := do
  if ¬(500 ≤ limits.target_tokens ∧ limits.target_tokens ≤ limits.max_tokens) then
    throw (.refused "targetTokens must be at least 500 and not exceed maxTokens")
  if ¬((Binary64.of 0.08).le limits.overlap_ratio ∧ limits.overlap_ratio.le (Binary64.of 0.12)) then
    throw (.refused "overlapRatio must be within the AKMP 8-12% range")
  let groups ← chunk_groups tokenizer limits (_units tokenizer limits.max_tokens document)
  groups.zipIdx.mapM (fun group => rag_chunk hasher tokenizer document language groups group.2 group.1)

end Drafts

section Parts

variable (tokenizer : Tokenizer) (limits : ChunkLimits)

-- The units of a chunk: those of the chunk before that it begins with, and the new ones.
structure Part where
  carried : List ChunkUnit
  fresh : List ChunkUnit

def Part.whole (part : Part) : List ChunkUnit := part.carried ++ part.fresh

def tokens (units : List ChunkUnit) : Int := (units.map (fun unit => tokenizer.count unit.text)).sum

-- Every unit is kept, or over the budget with those that are kept behind it.
inductive Kept (target unit_tokens : Int) : List ChunkUnit → List ChunkUnit → Prop
  | nil : Kept target unit_tokens [] []
  | keep {unit : ChunkUnit} {rest carried : List ChunkUnit} (hrest : Kept target unit_tokens rest carried) :
      Kept target unit_tokens (unit :: rest) (unit :: carried)
  | pass {unit : ChunkUnit} {rest carried : List ChunkUnit}
      (hover : over_budget tokenizer limits target unit_tokens ⟨carried, tokens tokenizer carried⟩ unit)
      (hrest : Kept target unit_tokens rest carried) :
      Kept target unit_tokens (unit :: rest) carried

-- Behind those units that are not looked at: the first unit that is kept has reached the target.
def Carried (target unit_tokens : Int) (previous carried : List ChunkUnit) : Prop :=
  ∃ front rest, previous = front ++ rest ∧ (front = [] ∨ target ≤ tokens tokenizer carried) ∧
    tokens tokenizer carried.tail < target ∧ Kept tokenizer limits target unit_tokens rest carried

def Part.Alone (part : Part) : Prop := ∃ unit, unit.standalone = true ∧ part.whole = [unit]

-- Nothing is carried into a unit that stands alone, and nothing out of one.
def Follows (before after : Part) : Prop :=
  (after.carried = [] ∧ (before.Alone ∨ after.Alone)) ∨
    ∃ target unit rest, limits.overlap_target = .ok target ∧ after.fresh = unit :: rest ∧
      Carried tokenizer limits target (tokenizer.count unit.text) before.whole after.carried

structure Sound (parts : List Part) (units : List ChunkUnit) : Prop where
  fresh : parts.flatMap Part.fresh = units
  fresh_ne : ∀ part ∈ parts, part.fresh ≠ []
  first : ∀ part ∈ parts.head?, part.carried = []
  chained : parts.IsChain (Follows tokenizer limits)
  alone : ∀ part ∈ parts, ∀ unit ∈ part.whole, unit.standalone = true → part.whole = [unit]

variable {tokenizer limits}

theorem Kept.sublist {target unit_tokens : Int} {previous carried : List ChunkUnit}
    (hkept : Kept tokenizer limits target unit_tokens previous carried) :
    carried.Sublist previous := by
  induction hkept with
  | nil => exact List.Sublist.slnil
  | keep hrest ih => exact ih.cons_cons _
  | pass hover hrest ih => exact ih.cons _

theorem Carried.sublist {target unit_tokens : Int} {previous carried : List ChunkUnit}
    (hcarried : Carried tokenizer limits target unit_tokens previous carried) :
    carried.Sublist previous := by
  obtain ⟨front, rest, rfl, -, -, hkept⟩ := hcarried
  exact hkept.sublist.trans (List.sublist_append_right front rest)

theorem ChunkLimits.overlap_target_pos {target : Int} (htarget : limits.overlap_target = .ok target) :
    0 < target := by
  unfold overlap_target at htarget
  split at htarget
  · cases htarget
  split at htarget
  · cases htarget
  · rw [← Except.ok.inj htarget]
    exact Int.zero_lt_one.trans_le (le_max_left 1 _)

theorem carried_carry {target unit_tokens : Int} {left rest carried : List ChunkUnit}
    (htables : ∀ unit ∈ left, is_table unit = false) (hroom : tokens tokenizer carried < target)
    (htail : tokens tokenizer carried.tail < target)
    (hkept : Kept tokenizer limits target unit_tokens rest carried) :
    ∃ units, carry tokenizer limits target unit_tokens ⟨carried, tokens tokenizer carried⟩ left =
        ⟨units, tokens tokenizer units⟩ ∧
      Carried tokenizer limits target unit_tokens (left.reverse ++ rest) units := by
  induction left generalizing rest carried with
  | nil => exact ⟨carried, rfl, [], rest, rfl, .inl rfl, htail, hkept⟩
  | cons previous left ih =>
      obtain ⟨hprevious, hleft⟩ := List.forall_mem_cons.mp htables
      have hreverse : (previous :: left).reverse ++ rest = left.reverse ++ previous :: rest := by
        rw [List.reverse_cons, List.append_assoc, List.singleton_append]
      rw [carry, if_neg (by simp [hprevious]), hreverse]
      by_cases hover : over_budget tokenizer limits target unit_tokens
          ⟨carried, tokens tokenizer carried⟩ previous
      · rw [if_pos hover]
        exact ih hleft hroom htail (.pass hover hkept)
      · have htokens : tokens tokenizer carried + tokenizer.count previous.text =
            tokens tokenizer (previous :: carried) := by
          rw [tokens, tokens, List.map_cons, List.sum_cons, add_comm]
        rw [if_neg hover]
        simp only [htokens]
        split
        · rename_i hreached
          exact ⟨previous :: carried, rfl, left.reverse, previous :: rest, rfl, .inr hreached,
            hroom, .keep hkept⟩
        · rename_i hshort
          exact ih hleft (not_le.mp hshort) hroom (.keep hkept)

theorem Sound.concat {parts : List Part} {units : List ChunkUnit} {part : Part}
    (hsound : Sound tokenizer limits parts units)
    (hfollows : ∀ before ∈ parts.getLast?, Follows tokenizer limits before part)
    (hfirst : parts = [] → part.carried = []) (hfresh : part.fresh ≠ [])
    (halone : ∀ unit ∈ part.whole, unit.standalone = true → part.whole = [unit]) :
    Sound tokenizer limits (parts ++ [part]) (units ++ part.fresh) where
  fresh := by rw [List.flatMap_append, hsound.fresh, List.flatMap_singleton]
  fresh_ne := by
    intro other hother
    rcases List.mem_append.mp hother with hbefore | hnew
    · exact hsound.fresh_ne other hbefore
    · rwa [List.mem_singleton.mp hnew]
  first := by
    intro other hother
    cases parts with
    | nil =>
        obtain rfl : part = other := Option.some.inj hother
        exact hfirst rfl
    | cons first rest => exact hsound.first other hother
  chained := by
    refine List.isChain_append.mpr ⟨hsound.chained, List.isChain_singleton part, ?_⟩
    intro before hbefore after hafter
    obtain rfl : part = after := Option.some.inj hafter
    exact hfollows before hbefore
  alone := by
    intro other hother
    rcases List.mem_append.mp hother with hbefore | hnew
    · exact hsound.alone other hbefore
    · rwa [List.mem_singleton.mp hnew]

-- A unit that joins the last chunk.
theorem Sound.extend {before : List Part} {last : Part} {units : List ChunkUnit} {unit : ChunkUnit}
    (hsound : Sound tokenizer limits (before ++ [last]) units)
    (halone : ∀ other ∈ last.whole ++ [unit], other.standalone = false) :
    Sound tokenizer limits (before ++ [⟨last.carried, last.fresh ++ [unit]⟩]) (units ++ [unit]) where
  fresh := by
    rw [← hsound.fresh, List.flatMap_append, List.flatMap_append, List.flatMap_singleton,
      List.flatMap_singleton, List.append_assoc]
  fresh_ne := by
    intro part hpart
    rcases List.mem_append.mp hpart with hbefore | hnew
    · exact hsound.fresh_ne part (List.mem_append_left _ hbefore)
    · rw [List.mem_singleton.mp hnew]
      simp
  first := by
    intro part hpart
    cases before with
    | nil =>
        obtain rfl : Part.mk last.carried (last.fresh ++ [unit]) = part := Option.some.inj hpart
        exact hsound.first last rfl
    | cons first rest => exact hsound.first part hpart
  chained := by
    obtain ⟨hbefore, -, hlink⟩ := List.isChain_append.mp hsound.chained
    refine List.isChain_append.mpr ⟨hbefore, List.isChain_singleton _, ?_⟩
    intro first hfirst after hafter
    obtain rfl : Part.mk last.carried (last.fresh ++ [unit]) = after := Option.some.inj hafter
    rcases hlink first hfirst last rfl with
      ⟨hnil, hbefore | ⟨other, hother, hwhole⟩⟩ | ⟨target, head, rest, htarget, hfresh, hcarried⟩
    · exact .inl ⟨hnil, .inl hbefore⟩
    · have hplain := halone other (by simp [hwhole])
      rw [hother] at hplain
      cases hplain
    · exact .inr ⟨target, head, rest ++ [unit], htarget, by rw [hfresh, List.cons_append], hcarried⟩
  alone := by
    intro part hpart other hother hstandalone
    rcases List.mem_append.mp hpart with hbefore | hnew
    · exact hsound.alone part (List.mem_append_left _ hbefore) other hother hstandalone
    · obtain rfl := List.mem_singleton.mp hnew
      rw [Part.whole, ← List.append_assoc] at hother
      rw [halone other hother] at hstandalone
      cases hstandalone

def Plain (units : List ChunkUnit) : Prop :=
  ∀ unit ∈ units, unit.standalone = false ∧ is_table unit = false

theorem Plain.append {first second : List ChunkUnit} (hfirst : Plain first) (hsecond : Plain second) :
    Plain (first ++ second) := by
  intro unit hunit
  rcases List.mem_append.mp hunit with hmem | hmem
  · exact hfirst unit hmem
  · exact hsecond unit hmem

-- What the loop has after some units: the chunks written out and the one under way.
inductive Grouped (tokenizer : Tokenizer) (limits : ChunkLimits) (units : List ChunkUnit) :
    Grouping → Prop
  | closed (parts : List Part) (tokens : Int) (hsound : Sound tokenizer limits parts units)
      (hlast : ∀ last ∈ parts.getLast?, last.Alone) :
      Grouped tokenizer limits units ⟨parts.map Part.whole, [], tokens⟩
  | under_way (before : List Part) (last : Part) (tokens : Int)
      (hsound : Sound tokenizer limits (before ++ [last]) units) (hplain : Plain last.whole) :
      Grouped tokenizer limits units ⟨before.map Part.whole, last.whole, tokens⟩

theorem Grouped.exists_parts {units : List ChunkUnit} {grouping : Grouping}
    (hgrouped : Grouped tokenizer limits units grouping) :
    ∃ parts, Sound tokenizer limits parts units ∧
      grouping.groups ++ Packing.closed grouping.current = parts.map Part.whole := by
  cases hgrouped with
  | closed parts tokens hsound hlast => exact ⟨parts, hsound, by simp [Packing.closed]⟩
  | under_way before last tokens hsound hplain =>
      have hfresh := hsound.fresh_ne last (List.mem_append_right _ List.mem_cons_self)
      have hne : last.whole ≠ [] := List.append_ne_nil_of_right_ne_nil _ hfresh
      refine ⟨_, hsound, ?_⟩
      rw [Packing.closed, if_neg hne, List.map_append, List.map_singleton]

-- A part without carried units begins anew.
theorem Sound.begin {parts : List Part} {units : List ChunkUnit}
    (hsound : Sound tokenizer limits parts units) {unit : ChunkUnit}
    (halone : ∀ last ∈ parts.getLast?, last.Alone ∨ Part.Alone ⟨[], [unit]⟩) :
    Sound tokenizer limits (parts ++ [⟨[], [unit]⟩]) (units ++ [unit]) := by
  refine hsound.concat (fun last hlast => .inl ⟨rfl, halone last hlast⟩) (fun _ => rfl) (by simp) ?_
  intro other hother hstandalone
  rw [Part.whole, List.nil_append, List.mem_singleton] at hother
  rw [hother]
  rfl

-- A part that begins with what is carried over from the last one.
theorem Sound.carry {before : List Part} {last : Part} {units : List ChunkUnit} {unit : ChunkUnit}
    (hsound : Sound tokenizer limits (before ++ [last]) units) {target : Int}
    (htarget : limits.overlap_target = .ok target) {carried : List ChunkUnit}
    (hcarried : Carried tokenizer limits target (tokenizer.count unit.text) last.whole carried)
    (hplain : Plain (carried ++ [unit])) :
    Sound tokenizer limits (before ++ [last] ++ [⟨carried, [unit]⟩]) (units ++ [unit]) := by
  refine hsound.concat ?_ (by simp) (by simp) ?_
  · intro previous hprevious
    rw [List.getLast?_concat] at hprevious
    obtain rfl : last = previous := Option.some.inj hprevious
    exact .inr ⟨target, unit, [], htarget, rfl, hcarried⟩
  · intro other hother hstandalone
    rw [(hplain other hother).1] at hstandalone
    cases hstandalone

theorem Grouped.next {units : List ChunkUnit} {unit : ChunkUnit} {grouping next : Grouping}
    (hunit : unit.standalone = false → is_table unit = false)
    (hgrouped : Grouped tokenizer limits units grouping)
    (hnext : group_unit tokenizer limits grouping unit = .ok next) :
    Grouped tokenizer limits (units ++ [unit]) next := by
  simp only [group_unit] at hnext
  split at hnext
  · -- a unit that stands alone
    obtain ⟨parts, hsound, hparts⟩ := hgrouped.exists_parts
    obtain rfl := Except.ok.inj hnext
    rw [hparts]
    rename_i hstandalone
    have halone : Part.Alone ⟨[], [unit]⟩ := ⟨unit, hstandalone, rfl⟩
    have hclosed := Grouped.closed _ (if grouping.current = [] then grouping.current_tokens else 0)
      (hsound.begin (fun _ _ => .inr halone)) (by
        intro last hlast
        rw [List.getLast?_concat] at hlast
        exact Option.some.inj hlast ▸ halone)
    rwa [List.map_append] at hclosed
  rename_i hstandalone
  have hone : Plain [unit] := by
    intro other hother
    have hplain : unit.standalone = false := by simpa using hstandalone
    rw [List.mem_singleton.mp hother]
    exact ⟨hplain, hunit hplain⟩
  split at hnext
  · -- the chunk under way is full
    rename_i hfull
    cases hgrouped with
    | closed parts tokens hsound hlast => exact absurd rfl hfull.1
    | under_way before last count hsound hlast =>
        obtain ⟨target, htarget, hcarry⟩ := of_bind_eq_ok hnext
        obtain rfl := Except.ok.inj hcarry
        have hreverse : ∀ other ∈ last.whole.reverse, is_table other = false :=
          fun other hother => (hlast other (List.mem_reverse.mp hother)).2
        have hnone : tokens tokenizer [] < target := ChunkLimits.overlap_target_pos htarget
        obtain ⟨carried, hkept, hcarried⟩ := carried_carry hreverse hnone hnone
          (Kept.nil : Kept tokenizer limits target (tokenizer.count unit.text) [] [])
        rw [List.reverse_reverse, List.append_nil] at hcarried
        have hplain : Plain (carried ++ [unit]) := Plain.append
          (fun other hother => hlast other (hcarried.sublist.subset hother)) hone
        have hunder := Grouped.under_way _ ⟨carried, [unit]⟩
          (tokens tokenizer carried + tokenizer.count unit.text)
          (hsound.carry htarget hcarried hplain) hplain
        rw [List.map_append, List.map_singleton] at hunder
        have hstart : Exporters.carry tokenizer limits target (tokenizer.count unit.text) ⟨[], 0⟩
            last.whole.reverse = ⟨carried, tokens tokenizer carried⟩ := hkept
        rw [hstart]
        exact hunder
  · -- the unit joins the chunk under way
    obtain rfl := Except.ok.inj hnext
    cases hgrouped with
    | closed parts tokens hsound hlast =>
        exact .under_way parts ⟨[], [unit]⟩ _ (hsound.begin fun last h => .inl (hlast last h)) hone
    | under_way before last tokens hsound hlast =>
        have hwhole := hlast.append hone
        have hunder := Grouped.under_way before ⟨last.carried, last.fresh ++ [unit]⟩
          (tokens + tokenizer.count unit.text) (hsound.extend (fun other h => (hwhole other h).1))
        rw [Part.whole, ← List.append_assoc] at hunder
        exact hunder hwhole

theorem chunk_groups_sound {units : List ChunkUnit} {groups : List (List ChunkUnit)}
    (hunits : ∀ unit ∈ units, unit.standalone = false → is_table unit = false)
    (hgroups : chunk_groups tokenizer limits units = .ok groups) :
    ∃ parts, Sound tokenizer limits parts units ∧ groups = parts.map Part.whole := by
  obtain ⟨grouping, hfold, hclosed⟩ := of_bind_eq_ok hgroups
  obtain rfl := Except.ok.inj hclosed
  have hrun : ∀ (rest done : List ChunkUnit) (state : Grouping), done ++ rest = units →
      Grouped tokenizer limits done state →
      rest.foldlM (group_unit tokenizer limits) state = .ok grouping →
      Grouped tokenizer limits units grouping := by
    intro rest
    induction rest with
    | nil =>
        intro done state hdone hgrouped hstate
        obtain rfl := Except.ok.inj hstate
        rw [List.append_nil] at hdone
        exact hdone ▸ hgrouped
    | cons unit rest ih =>
        intro done state hdone hgrouped hstate
        rw [List.foldlM_cons] at hstate
        obtain ⟨next, hnext, hrest⟩ := of_bind_eq_ok hstate
        have hunit : unit ∈ units := hdone ▸ List.mem_append_right _ List.mem_cons_self
        refine ih (done ++ [unit]) next ?_ (hgrouped.next (hunits unit hunit) hnext) hrest
        rw [List.append_assoc, List.singleton_append, hdone]
  have hempty : Sound tokenizer limits [] [] := {
    fresh := rfl
    fresh_ne := by simp
    first := by simp
    chained := List.isChain_nil
    alone := by simp }
  exact (hrun units [] .start rfl (.closed [] 0 hempty (by simp)) hfold).exists_parts

-- Where nothing is left out behind what is carried, a chunk is a run of the units.
theorem Sound.infix {parts : List Part} {units : List ChunkUnit}
    (hsound : Sound tokenizer limits parts units)
    (hsuffix : parts.IsChain (fun before after => after.carried <:+ before.whole)) :
    ∀ part ∈ parts, part.whole <:+: units := by
  have hrun : ∀ (rest done : List Part) (last : Part), done ++ last :: rest = parts →
      last.whole <:+ (done ++ [last]).flatMap Part.fresh →
      ∀ part ∈ rest, part.whole <:+: units := by
    intro rest
    induction rest with
    | nil => simp
    | cons next rest ih =>
        intro done last hparts hlast part hpart
        have hlink : next.carried <:+ last.whole := by
          rw [← hparts] at hsuffix
          exact (List.isChain_append_cons_cons.mp hsuffix).2.1
        have hnext : next.whole <:+ (done ++ [last] ++ [next]).flatMap Part.fresh := by
          obtain ⟨front, hfront⟩ := hlink.trans hlast
          refine ⟨front, ?_⟩
          rw [Part.whole, ← List.append_assoc, hfront]
          simp
        have hmore : done ++ [last] ++ next :: rest = parts := by
          rw [List.append_assoc, List.singleton_append, hparts]
        rcases List.mem_cons.mp hpart with rfl | hlater
        · have hunits : (done ++ [last] ++ [part]).flatMap Part.fresh <+: units := by
            rw [← hsound.fresh, ← hmore]
            exact ⟨rest.flatMap Part.fresh, by simp⟩
          exact hnext.isInfix.trans hunits.isInfix
        · exact ih (done ++ [last]) next hmore hnext part hlater
  intro part hpart
  cases hparts : parts with
  | nil =>
      rw [hparts] at hpart
      cases hpart
  | cons first rest =>
      have hcarried : first.carried = [] := hsound.first first (by rw [hparts]; rfl)
      have hfirst : first.whole = first.fresh := by rw [Part.whole, hcarried, List.nil_append]
      have hunits : first.fresh ++ rest.flatMap Part.fresh = units := by
        rw [← hsound.fresh, hparts, List.flatMap_cons]
      rw [hparts] at hpart
      rcases List.mem_cons.mp hpart with rfl | hlater
      · exact hfirst ▸ ⟨[], rest.flatMap Part.fresh, hunits⟩
      · exact hrun rest [] first hparts.symm (by simp [hfirst]) part hlater

theorem is_table_value {type : BlockType} (htype : type ≠ .table) :
    BlockType.table.value.toList.isPrefixOf type.value.toList = false := by
  cases type with
  | table => exact absurd rfl htype
  | _ => decide

theorem not_table_of_block_units {max_tokens : Int} {block : CanonicalBlock}
    {blocks : List CanonicalBlock} {path : List (List Char)} {text : List Char} {unit : ChunkUnit}
    (htype : block.type ≠ .table)
    (hunit : unit ∈ block_units tokenizer max_tokens block blocks path text)
    (hstandalone : unit.standalone = false) : is_table unit = false := by
  unfold block_units at hunit
  split at hunit
  · rw [List.mem_singleton.mp hunit] at hstandalone
    cases hstandalone
  split at hunit
  · obtain ⟨pieces, -, rfl⟩ := List.mem_map.mp hunit
    exact is_table_value htype
  · rw [List.mem_singleton.mp hunit]
    exact is_table_value htype

theorem standalone_of_table_units {max_tokens : Int} {block : CanonicalBlock}
    {path : List (List Char)} {unit : ChunkUnit}
    (hunit : unit ∈ _table_units tokenizer max_tokens block path) : unit.standalone = true := by
  unfold _table_units at hunit
  split at hunit
  · cases hunit
  simp only at hunit
  split at hunit
  · rw [List.mem_singleton.mp hunit]
    rfl
  split at hunit
  · rw [List.mem_singleton.mp hunit]
    rfl
  · obtain ⟨rows, -, rfl⟩ := List.mem_map.mp hunit
    rfl

theorem not_table_of_units {max_tokens : Int} {stack : HeadingStack} {taken : Bool}
    {blocks : List CanonicalBlock} :
    ∀ unit ∈ units_from tokenizer max_tokens stack taken blocks,
      unit.standalone = false → is_table unit = false := by
  induction blocks generalizing stack taken with
  | nil => simp [units_from]
  | cons block rest ih =>
      intro unit hunit hstandalone
      unfold units_from at hunit
      simp only at hunit
      split at hunit
      · exact ih unit hunit hstandalone
      split at hunit
      · exact ih unit hunit hstandalone
      split at hunit
      · rcases List.mem_append.mp hunit with htable | hlater
        · rw [standalone_of_table_units htable] at hstandalone
          cases hstandalone
        · exact ih unit hlater hstandalone
      · rename_i htype
        split at hunit
        · rcases List.mem_append.mp hunit with hblock | hlater
          · exact not_table_of_block_units htype hblock hstandalone
          · exact ih unit hlater hstandalone
        · rcases List.mem_append.mp hunit with hblock | hlater
          · exact not_table_of_block_units htype hblock hstandalone
          · exact ih unit hlater hstandalone

theorem content_of_rag_chunk {hasher : Hasher} {document : CanonicalDocument}
    {language : List Char} {groups : List (List ChunkUnit)} {index : Nat} {group : List ChunkUnit}
    {chunk : RagChunk}
    (hchunk : rag_chunk hasher tokenizer document language groups index group = .ok chunk) :
    chunk.content = chunk_text group := by
  simp only [rag_chunk] at hchunk
  split at hchunk
  · split at hchunk
    · obtain rfl := Except.ok.inj hchunk
      rfl
    · cases hchunk
  · cases hchunk

-- A chunk is some units of the one before, none of them left out but for the budget, and
-- the next run of the document's units.
theorem chunks_follow_units {hasher : Hasher} {document : CanonicalDocument}
    {language : List Char} {chunks : List RagChunk}
    (hchunks : adaptive_chunks hasher tokenizer document limits language = .ok chunks) :
    ∃ parts : List Part, Sound tokenizer limits parts (_units tokenizer limits.max_tokens document) ∧
      chunks.map (·.content) = parts.map (fun part => chunk_text part.whole) ∧
      (parts.IsChain (fun before after => after.carried <:+ before.whole) →
        ∀ part ∈ parts, part.whole <:+: _units tokenizer limits.max_tokens document) := by
  simp only [adaptive_chunks] at hchunks
  split at hchunks
  · cases hchunks
  split at hchunks
  · cases hchunks
  obtain ⟨groups, hgroups, hmap⟩ := of_bind_eq_ok hchunks
  obtain ⟨parts, hsound, rfl⟩ := chunk_groups_sound not_table_of_units hgroups
  refine ⟨parts, hsound, ?_, hsound.infix⟩
  have hcontents : List.Forall₂ (fun (group : List ChunkUnit × Nat) chunk =>
      chunk.content = chunk_text group.1) (parts.map Part.whole).zipIdx chunks :=
    (mapM_eq_ok_iff.mp hmap).imp (fun _ _ hchunk => content_of_rag_chunk hchunk)
  have hgroups : (parts.map Part.whole).zipIdx.map (fun group => chunk_text group.1) =
      parts.map (fun part => chunk_text part.whole) := by
    have hfirst : (fun group : List ChunkUnit × Nat => chunk_text group.1) = chunk_text ∘ Prod.fst := rfl
    rw [hfirst, ← List.map_map, List.zipIdx_map_fst, List.map_map]
    rfl
  rw [← hgroups]
  exact map_eq_of_forall₂ hcontents

end Parts

section Samples

-- Every character is a token.
def characters : Tokenizer where
  name := "characters"
  count text := text.length

def sample_ref : SourceRef where
  document_id := "doc"
  document_version_id := "version"
  page_index0 := 0
  page_number1 := 1
  bbox1000 := none
  native_object_id := none
  image_asset_id := none
  time_start_ms := none
  time_end_ms := none
  page_number_eq := rfl

def sample_paragraph (id : String) (order : Nat) (text : List Char) : CanonicalBlock where
  id := id
  order := order
  type := .paragraph
  content_layer := .structured
  raw_text := some text
  normalized_text := none
  markdown := none
  sanitized_html := none
  table := none
  formula_latex := none
  origin := .native_extracted
  source_refs := [sample_ref]
  confidence := none
  content_hash := "sha256:"
  revision := 1
  source_refs_ne := by simp
  table_iff := by simp
  formula_given := by simp

-- A short paragraph, a long one, and one that does not fit behind the two.
def three_paragraphs : CanonicalDocument where
  document_id := "doc"
  document_version_id := "version"
  title := "Title".toList
  source_sha256 := "sha256:"
  blocks := [sample_paragraph "block_a" 0 (List.replicate 40 'a'),
    sample_paragraph "block_b" 1 (List.replicate 300 'b'),
    sample_paragraph "block_c" 2 (List.replicate 200 'c')]
  title_ne := by simp
  ids_distinct := by decide
  orders_distinct := by decide

def sample_limits : ChunkLimits := ⟨500, 1200, .of (1 / 10)⟩

def unit_lengths (units : List ChunkUnit) : List Nat := units.map (fun unit => unit.text.length)

theorem three_paragraphs_units :
    unit_lengths (_units characters 1200 three_paragraphs) = [40, 300, 200] := by decide +kernel

theorem three_paragraphs_groups :
    ((chunk_groups characters sample_limits (_units characters 1200 three_paragraphs)).toOption.map
      (·.map unit_lengths)) = some [[40, 300], [40, 200]] := by decide +kernel

theorem three_paragraphs_ok :
    (adaptive_chunks sha256 characters three_paragraphs sample_limits "en".toList).isOk = true := by
  decide +kernel

theorem three_paragraphs_chunks : ∃ chunks,
    adaptive_chunks sha256 characters three_paragraphs sample_limits "en".toList = .ok chunks := by
  have hok := three_paragraphs_ok
  cases hchunks : adaptive_chunks sha256 characters three_paragraphs sample_limits "en".toList with
  | ok chunks => exact ⟨chunks, rfl⟩
  | error fault =>
      rw [hchunks] at hok
      cases hok

-- The second chunk goes from the first paragraph to the third.
theorem middle_unit_left_out : ∃ chunks groups,
    adaptive_chunks sha256 characters three_paragraphs sample_limits "en".toList = .ok chunks ∧
      chunk_groups characters sample_limits (_units characters 1200 three_paragraphs) = .ok groups ∧
      ∃ group ∈ groups, ¬group <:+: _units characters 1200 three_paragraphs := by
  obtain ⟨chunks, hchunks⟩ := three_paragraphs_chunks
  have hlengths := three_paragraphs_groups
  cases hgroups : chunk_groups characters sample_limits (_units characters 1200 three_paragraphs) with
  | error fault =>
      rw [hgroups] at hlengths
      cases hlengths
  | ok groups =>
      rw [hgroups] at hlengths
      have hmap : groups.map unit_lengths = [[40, 300], [40, 200]] := Option.some.inj hlengths
      have hsecond : [40, 200] ∈ groups.map unit_lengths := by simp [hmap]
      obtain ⟨group, hgroup, hunits⟩ := List.mem_map.mp hsecond
      refine ⟨chunks, groups, hchunks, rfl, group, hgroup, fun hinfix => ?_⟩
      have hlength := hinfix.map (fun unit => unit.text.length)
      have hall := three_paragraphs_units
      unfold unit_lengths at hunits hall
      rw [hunits, hall] at hlength
      revert hlength
      decide

theorem three_paragraphs_follow : ∃ chunks,
    adaptive_chunks sha256 characters three_paragraphs sample_limits "en".toList = .ok chunks ∧
      ∃ parts : List Part,
        Sound characters sample_limits parts (_units characters 1200 three_paragraphs) ∧
        chunks.map (·.content) = parts.map (fun part => chunk_text part.whole) ∧
        (parts.IsChain (fun before after => after.carried <:+ before.whole) →
          ∀ part ∈ parts, part.whole <:+: _units characters 1200 three_paragraphs) := by
  obtain ⟨chunks, hchunks⟩ := three_paragraphs_chunks
  exact ⟨chunks, hchunks, chunks_follow_units hchunks⟩

end Samples

end KnowledgeCompiler.Exporters
