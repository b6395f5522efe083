import KnowledgeCompiler.Lib.Binary64.Order
import KnowledgeCompiler.Lib.Datetime
import KnowledgeCompiler.Lib.Dict
import KnowledgeCompiler.Lib.Minimum
import Mathlib.Data.Finset.Basic

namespace KnowledgeCompiler.Parallel

open Lib

inductive QueueFault
  | value_error (message : String)
  | runtime_error (message : String)
  | index_error (message : String)
deriving DecidableEq

inductive JobPriority
  | TINY_QUICK
  | INTERACTIVE
  | BENCHMARK
  | RECOVERY
  | BULK_BACKGROUND
deriving DecidableEq

def JobPriority.value : JobPriority → ℕ
  | TINY_QUICK => 0
  | INTERACTIVE => 1
  | BENCHMARK => 2
  | RECOVERY => 3
  | BULK_BACKGROUND => 4

-- Aware moments are compared and subtracted by their instants, so `enqueued_at` is one.
structure WorkItem where
  work_id : String
  shard_id : String
  priority : JobPriority
  estimated_seconds : Binary64
  required_capabilities : Finset String
  model_cache_key : String
  enqueued_at : ℤ
  sequence : ℕ
  checked : (work_id ≠ "" ∧ shard_id ≠ "" ∧ model_cache_key ≠ "") ∧
    estimated_seconds.lt (.finite 0) = false
deriving DecidableEq

structure SortKey where
  effective : Binary64
  estimated_seconds : Binary64
  sequence : ℕ
  work_id : String
deriving DecidableEq

-- Tuples are compared at the first place where they differ.
def SortKey.lt (first second : SortKey) : Bool :=
  if first.effective ≠ second.effective then first.effective.lt second.effective
  else if first.estimated_seconds ≠ second.estimated_seconds then
    first.estimated_seconds.lt second.estimated_seconds
  else if first.sequence ≠ second.sequence then first.sequence < second.sequence
  else first.work_id < second.work_id

structure FairPriorityQueue where
  _aging_seconds : Binary64
  _items : Dict String WorkItem
  positive : _aging_seconds.le (.finite 0) = false

namespace FairPriorityQueue

def opened (aging_seconds : Binary64) : Except QueueFault FairPriorityQueue :=
  if h : aging_seconds.le (.finite 0) = false then .ok ⟨aging_seconds, .empty, h⟩
  else .error (.value_error "aging_seconds must be positive")

def put (queue : FairPriorityQueue) (item : WorkItem) : Except QueueFault FairPriorityQueue :=
  if ∃ existing ∈ queue._items.get? item.work_id, existing ≠ item then
    .error (.runtime_error "work id cannot be reused with different scheduling input")
  else .ok { queue with _items := queue._items.set item.work_id item }

-- `(now - enqueued_at).total_seconds()`
def total_seconds (microseconds : ℤ) : Binary64 := .of (microseconds / 10 ^ 6)

def _sort_key (queue : FairPriorityQueue) (item : WorkItem) (now : ℤ) : SortKey :=
  let waited := (Binary64.finite 0).max (total_seconds (now - item.enqueued_at))
  { effective := (Binary64.finite 0).max
      ((Binary64.finite item.priority.value).sub (waited.div queue._aging_seconds))
    estimated_seconds := item.estimated_seconds
    sequence := item.sequence
    work_id := item.work_id }

def before (queue : FairPriorityQueue) (now : ℤ) (first second : WorkItem) : Bool :=
  (queue._sort_key first now).lt (queue._sort_key second now)

def pop (queue : FairPriorityQueue) (now : Datetime) :
    Except QueueFault (WorkItem × FairPriorityQueue) :=
  if now.utcoffset.isNone then .error (.value_error "queue time must be timezone-aware")
  else
    match firstMin (queue.before now.instant) queue._items.values with
    | none => .error (.index_error "queue is empty")
    | some item => .ok (item, { queue with _items := queue._items.erase item.work_id })

end FairPriorityQueue

end KnowledgeCompiler.Parallel
