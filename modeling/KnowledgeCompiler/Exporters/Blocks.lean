import KnowledgeCompiler.Exporters.Tables
import Mathlib.Algebra.Order.Ring.Rat

namespace KnowledgeCompiler.Exporters

open Lib

structure SourceRef where
  document_id : String
  document_version_id : String
  page_index0 : Nat
  page_number1 : Nat
  bbox1000 : Option (Nat × Nat × Nat × Nat)
  native_object_id : Option String
  image_asset_id : Option String
  time_start_ms : Option Nat
  time_end_ms : Option Nat
  page_number_eq : page_number1 = page_index0 + 1

inductive BlockType
  | title | heading | paragraph | list | table | figure | caption | formula | code | quote
  | footnote | header | footer | page_number | unknown
deriving DecidableEq

def BlockType.value : BlockType → String
  | .title => "title"
  | .heading => "heading"
  | .paragraph => "paragraph"
  | .list => "list"
  | .table => "table"
  | .figure => "figure"
  | .caption => "caption"
  | .formula => "formula"
  | .code => "code"
  | .quote => "quote"
  | .footnote => "footnote"
  | .header => "header"
  | .footer => "footer"
  | .page_number => "page_number"
  | .unknown => "unknown"

inductive BlockOrigin
  | native_extracted | ocr_extracted | rule_reconstructed | ai_reconstructed | ai_summarized
  | ai_inferred | user_edited
deriving DecidableEq

def BlockOrigin.value : BlockOrigin → String
  | .native_extracted => "native_extracted"
  | .ocr_extracted => "ocr_extracted"
  | .rule_reconstructed => "rule_reconstructed"
  | .ai_reconstructed => "ai_reconstructed"
  | .ai_summarized => "ai_summarized"
  | .ai_inferred => "ai_inferred"
  | .user_edited => "user_edited"

inductive ContentLayer
  | source | extracted | structured | knowledge | index
deriving DecidableEq

-- A confidence is a float from 0 to 1, kept as its exact value.
structure CanonicalBlock where
  id : String
  order : Nat
  type : BlockType
  content_layer : ContentLayer
  raw_text : Option (List Char)
  normalized_text : Option (List Char)
  markdown : Option (List Char)
  sanitized_html : Option (List Char)
  table : Option CanonicalTable
  formula_latex : Option (List Char)
  origin : BlockOrigin
  source_refs : List SourceRef
  confidence : Option ℚ
  content_hash : String
  revision : Nat
  source_refs_ne : source_refs ≠ []
  table_iff : type = .table ↔ table ≠ none
  formula_given : type = .formula → ∃ latex, formula_latex = some latex ∧ latex ≠ []

structure CanonicalDocument where
  document_id : String
  document_version_id : String
  title : List Char
  source_sha256 : String
  blocks : List CanonicalBlock
  title_ne : title ≠ []
  ids_distinct : (blocks.map (·.id)).Nodup
  orders_distinct : (blocks.map (·.order)).Nodup

-- The key `(order, id)`.
def CanonicalBlock.no_later (first second : CanonicalBlock) : Prop :=
  first.order < second.order ∨ first.order = second.order ∧ first.id ≤ second.id

instance : DecidableRel CanonicalBlock.no_later := fun _ _ => inferInstanceAs (Decidable (_ ∨ _))

def CanonicalDocument.ordered_blocks (document : CanonicalDocument) : List CanonicalBlock :=
  document.blocks.insertionSort CanonicalBlock.no_later

-- The first of the texts that is given and not empty.
def first_text (texts : List (Option (List Char))) : List Char :=
  ((texts.filterMap id).find? (· ≠ [])).getD []

-- `text.lstrip("# ").strip()`
def strip_marks (text : List Char) : List Char :=
  Text.strip (text.dropWhile (fun c => c = '#' || c = ' '))

-- `re.match(r"^(#{1,6})\s+(.+)$", text, flags=re.DOTALL)` of a stripped text: the number of
-- marks, and what follows them without the blanks at its ends.
def match_heading (text : List Char) : Option (Nat × List Char) :=
  let level := (text.takeWhile (· = '#')).length
  let rest := text.dropWhile (· = '#')
  if 1 ≤ level ∧ level ≤ 6 ∧ rest.head?.any Text.isSpace ∧ Text.strip rest ≠ [] then
    some (level, Text.strip rest)
  else none

end KnowledgeCompiler.Exporters
