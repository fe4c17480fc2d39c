/-
Module: CodeNav.Cache.Resident
Purpose: A cache of values that are loaded on first use, with loads shared between callers.
Main exports:
  Load, Resident, Call, Resident.poll, Resident.runAll, Resident.remove
-/
import CodeNav.Cache.Weighted
import CodeNav.Failure

namespace CodeNav

/-!
An entry of the cache is a load, which may still be under way, so that callers of one key share a
single load.  An entry is weighed before its load is started; while its weight is being found,
another caller may start the load first.  A load that fails leaves the cache, unless another load
has taken its place.

Callers take turns.  Whenever it is a caller's turn it goes on as far as it can; finding a weight
or loading may give up its turn a number of times first.
-/

/-- A load: the turns that it still gives up, and what it comes to. -/
structure Load (α : Type) where
  turns : Nat
  outcome : Except Failure α

/-- The cache: which load stands under each key, and all loads ever started, by number. -/
structure Resident (α : Type) where
  entries : WeightedCache String Nat
  loads : Array (Load α)

/-- What a caller asks for: a key, how a missing entry is weighed, and how it is loaded. -/
structure Call (α : Type) where
  key : String
  weight : Nat
  weighTurns : Nat
  load : Load α

/-- How far a caller has come. -/
inductive Call.Progress (α : Type) where
  | waiting
  /-- The weight is being found, which gives up some more turns. -/
  | weighing (turns : Nat)
  /-- A load is being waited for. -/
  | settling (load : Nat)
  | done (result : Except Failure α)

namespace Resident

variable {α : Type}

/-- The cache without entries. -/
def empty (maxWeight : Nat) : Resident α :=
  ⟨.empty maxWeight, #[]⟩

/-- The values of loads that have left the cache, failed ones apart. -/
def disposable (cache : Resident α) (loads : List Nat) : List α :=
  loads.filterMap fun load => (cache.loads[load]?).bind fun l => l.outcome.toOption

/-- Looks a key up. -/
def lookup (cache : Resident α) (key : String) : Option Nat × Resident α :=
  let (found, entries) := cache.entries.get key
  (found, { cache with entries })

/-- Starts a load for a weighed key, unless another caller has started one. The result is the
number of the load, and the loads that were pushed out. -/
def register (cache : Resident α) (key : String) (weight : Nat) (load : Load α) :
    Nat × List Nat × Resident α :=
  match cache.entries.peek? key with
  | some running => (running, [], cache)
  | none =>
    let number := cache.loads.size
    let (pushedOut, entries) := cache.entries.insert key number weight
    (number, pushedOut.map (·.2), ⟨entries, cache.loads.push load⟩)

/-- Takes a failed load out of the cache, unless another one has its place. -/
def dropFailed (cache : Resident α) (key : String) (load : Nat) : Resident α :=
  if cache.entries.peek? key = some load then
    { cache with entries := (cache.entries.remove key).2 }
  else cache

/-- What a caller gets from a finished load: a failure is shared with all callers. -/
def finish (cache : Resident α) (key : String) (load : Nat) (outcome : Except Failure α) :
    Except Failure α × Resident α :=
  match outcome with
  | .ok value => (.ok value, cache)
  | .error failure => (.error (.shared failure), cache.dropFailed key load)

/-- A turn of a caller that waits for a load; each turn of any caller moves the load on. -/
def pollLoad (cache : Resident α) (key : String) (number : Nat) :
    Call.Progress α × Resident α :=
  match cache.loads[number]? with
  | none => (.settling number, cache)
  | some load =>
    match load.turns with
    | 0 =>
      let (result, cache) := cache.finish key number load.outcome
      (.done result, cache)
    | turns + 1 =>
      let loads := cache.loads.setIfInBounds number { load with turns }
      (.settling number, { cache with loads })

/-- A turn of a caller whose weight is being found. The result tells which loads were pushed
out. -/
def pollWeight (cache : Resident α) (call : Call α) :
    Nat → Call.Progress α × List Nat × Resident α
  | turns + 1 => (.weighing turns, [], cache)
  | 0 =>
    let (number, pushedOut, cache) := cache.register call.key call.weight call.load
    let (progress, cache) := cache.pollLoad call.key number
    (progress, pushedOut, cache)

/-- A turn of a caller. -/
def poll (cache : Resident α) (call : Call α) :
    Call.Progress α → Call.Progress α × List Nat × Resident α
  | .waiting =>
    match cache.lookup call.key with
    | (some number, cache) =>
      let (progress, cache) := cache.pollLoad call.key number
      (progress, [], cache)
    | (none, cache) => cache.pollWeight call call.weighTurns
  | .weighing turns => cache.pollWeight call turns
  | .settling number =>
    let (progress, cache) := cache.pollLoad call.key number
    (progress, [], cache)
  | .done result => (.done result, [], cache)

/-- One turn for each caller in order. -/
def round (cache : Resident α) :
    List (Call α × Call.Progress α) →
      List (Call α × Call.Progress α) × List Nat × Resident α
  | [] => ([], [], cache)
  | (call, progress) :: rest =>
    let (progress, pushedOut, cache) := cache.poll call progress
    let (others, more, cache) := round cache rest
    ((call, progress) :: others, pushedOut ++ more, cache)

/-- The result of a caller that is done. -/
def result? : Call.Progress α → Option (Except Failure α)
  | .done result => some result
  | _ => none

/-- Rounds until every caller is done; `fuel` bounds their number. -/
def rounds : Nat → Resident α → List (Call α × Call.Progress α) → List Nat →
    List (Except Failure α) × List Nat × Resident α
  | 0, cache, calls, pushedOut => (calls.filterMap (result? ·.2), pushedOut, cache)
  | fuel + 1, cache, calls, pushedOut =>
    match calls.mapM (result? ·.2) with
    | some results => (results, pushedOut, cache)
    | none =>
      let (calls, more, cache) := cache.round calls
      rounds fuel cache calls (pushedOut ++ more)

/-- The turns that a call may take. -/
def turnsOf (call : Call α) : Nat :=
  call.weighTurns + call.load.turns + 1

/-- The turns that the loads under way may take. -/
def turnsLeft (cache : Resident α) : Nat :=
  total (cache.loads.toList.map (·.turns))

/-- Runs calls together until all are done. The result tells what each call came to, and the
values that were pushed out on the way. -/
def runAll (cache : Resident α) (calls : List (Call α)) :
    List (Except Failure α) × List α × Resident α :=
  let bound := total (calls.map turnsOf) + cache.turnsLeft + 1
  let (results, pushedOut, cache) :=
    rounds bound cache (calls.map fun call => (call, .waiting)) []
  (results, cache.disposable pushedOut, cache)

/-- Takes a key out of the cache. The result tells whether it was there, and its value. -/
def remove (cache : Resident α) (key : String) : Bool × List α × Resident α :=
  match cache.entries.remove key with
  | (some load, entries) => (true, cache.disposable [load], { cache with entries })
  | (none, _) => (false, [], cache)

/-- Whether a key is in the cache. -/
def contains (cache : Resident α) (key : String) : Bool :=
  cache.entries.contains key

end Resident

end CodeNav
