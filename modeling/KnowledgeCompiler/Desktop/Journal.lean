import KnowledgeCompiler.Lib.Dict
import Mathlib.Data.String.Basic

namespace KnowledgeCompiler.Desktop

open Lib

-- `^[0-9a-f-]{36}$`: the end may be followed by a line end.
def is_uuid36 (text : String) : Bool :=
  let chars := text.toList
  let kept := if chars.getLast? = some '\n' then chars.dropLast else chars
  kept.length = 36 && kept.all (· ∈ "0123456789abcdef-".toList)

-- `str.casefold`: what is folded stays, and so does what has only digits and lower-case letters.
structure Casefold where
  fold : String → String
  fold_fold : ∀ text, fold (fold text) = fold text
  fold_uuid36 : ∀ text, is_uuid36 text = true → fold text = text

structure Record where
  event_key : String
  source_root_id : String
  sequence : Nat
  manifest_revision : Nat
  relative_path : String
  content_sha256 : String
  size_bytes : Nat
  generation : Nat
  action : String
deriving DecidableEq

structure DedupEntry where
  content_sha256 : Option String
  generation : Nat
deriving DecidableEq

structure StateLine where
  root : String
  rel : String
  content_sha256 : Option String
  generation : Nat
  manifest_revision : Nat
  sequence : Nat
deriving DecidableEq

-- An event line has its event key from the record.
inductive Line
  | event (record : Record)
  | ack (event_key : String)
  | state (line : StateLine)
deriving DecidableEq

structure ReplayResult where
  unprocessed : Dict String Record
  dedup : Dict (String × String) DedupEntry
  manifest_revision : Nat
  sequence : Nat

section Replay

variable (casefold : Casefold)

def StateLine.slot (line : StateLine) : String × String :=
  (casefold.fold line.root, casefold.fold line.rel)

def StateLine.entry (line : StateLine) : DedupEntry where
  content_sha256 := line.content_sha256
  generation := line.generation

def replay_line (result : ReplayResult) : Line → ReplayResult
  | .event record => { result with unprocessed := result.unprocessed.set record.event_key record }
  | .ack event_key => { result with unprocessed := result.unprocessed.erase event_key }
  | .state line =>
      { result with
        dedup := result.dedup.set (line.slot casefold) line.entry
        manifest_revision := max result.manifest_revision line.manifest_revision
        sequence := max result.sequence line.sequence }

def replay (journal : List Line) : ReplayResult :=
  journal.foldl (replay_line casefold)
    { unprocessed := .empty, dedup := .empty, manifest_revision := 0, sequence := 0 }

theorem replay_append (journal : List Line) (line : Line) :
    replay casefold (journal ++ [line]) = replay_line casefold (replay casefold journal) line := by
  rw [replay, List.foldl_append]
  rfl

end Replay

def Line.record? : Line → Option Record
  | .event record => some record
  | _ => none

def event_records (journal : List Line) : List Record := journal.filterMap Line.record?

@[simp] theorem event_records_event (journal : List Line) (record : Record) :
    event_records (journal ++ [.event record]) = event_records journal ++ [record] :=
  List.filterMap_append

@[simp] theorem event_records_ack (journal : List Line) (event_key : String) :
    event_records (journal ++ [.ack event_key]) = event_records journal := by
  rw [event_records, List.filterMap_append]
  exact List.append_nil _

@[simp] theorem event_records_state (journal : List Line) (line : StateLine) :
    event_records (journal ++ [.state line]) = event_records journal := by
  rw [event_records, List.filterMap_append]
  exact List.append_nil _

theorem unprocessed_records (casefold : Casefold) {journal : List Line} {event_key : String}
    {record : Record} (hfound : (replay casefold journal).unprocessed.get? event_key = some record) :
    record ∈ event_records journal ∧ record.event_key = event_key := by
  induction journal using List.reverseRecOn with
  | nil => cases hfound
  | append_singleton journal line ih =>
      rw [replay_append] at hfound
      cases line with
      | event other =>
          rw [replay_line, Dict.get?_set] at hfound
          rw [event_records_event]
          split at hfound
          · rename_i hkey
            cases hfound
            exact ⟨List.mem_concat_self, hkey.symm⟩
          · exact ⟨List.mem_append_left _ (ih hfound).1, (ih hfound).2⟩
      | ack other =>
          rw [replay_line, Dict.get?_erase] at hfound
          rw [event_records_ack]
          split at hfound
          · cases hfound
          · exact ih hfound
      | state other =>
          rw [event_records_state]
          exact ih hfound

end KnowledgeCompiler.Desktop
