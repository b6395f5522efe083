import KnowledgeCompiler.Lib.Binary64
import Mathlib.Data.Prod.Lex

namespace KnowledgeCompiler.Documents

open Lib

-- Left, top, right and bottom, per mille of the page.
abbrev Bbox : Type := ℤ × ℤ × ℤ × ℤ

structure NormalizationBlock where
  block_id : String
  page_number : ℤ
  order : ℤ
  block_type : String
  raw_text : String
  normalized_text : String
  bbox1000 : Option Bbox
  source_ref_ids : List String
  provider_order : Option ℤ := none
  provider_label : Option String := none
  font_size_pt : Option Binary64 := none
  font_weight : Option ℤ := none
  whitespace_before : Option Binary64 := none
  whitespace_after : Option Binary64 := none
  explicit_heading_level : Option ℤ := none
  is_toc_entry : Bool := false
  toc_level : Option ℤ := none
  markdown : Option String := none
deriving DecidableEq

def _provider_order (block : NormalizationBlock) : Option ℤ :=
  match block.provider_order.filter (0 ≤ ·) with
  | some order => some order
  | none => if 0 ≤ block.order then some block.order else none

-- Tuples are compared from the left.
abbrev ProviderKey : Type := ℕ ×ₗ ℤ ×ₗ String

def _provider_key (block : NormalizationBlock) : ProviderKey :=
  match _provider_order block with
  | none => toLex (1, toLex (2 ^ 31 - 1, block.block_id))
  | some provider => toLex (0, toLex (provider, block.block_id))

end KnowledgeCompiler.Documents
