/-
Module: CodeNav.Cache.Weighted
Purpose: A cache bounded by the total weight of its entries.
Main exports:
  WeightedCache, WeightedCache.get, WeightedCache.insert, WeightedCache.removeWhere, CacheStats
-/
import CodeNav.Decimal.Binary64

namespace CodeNav

/-- The greatest weight that is told apart from greater ones. -/
def maxWord : Nat := capacity 64 - 1

/-- Adds weights; the sum stays at the greatest one. -/
def addWeight (a b : Nat) : Nat :=
  min (a + b) maxWord

/-- How a cache has performed, and what it holds. -/
structure CacheStats where
  hits : Nat
  misses : Nat
  evictions : Nat
  entries : Nat
  weight : Nat
deriving Repr, DecidableEq

/-- The share of look-ups that were hits; zero before the first. -/
def CacheStats.hitRate (stats : CacheStats) : Binary64 :=
  if stats.hits + stats.misses == 0 then .ofNat 0
  else .ofFloat (Float.ofNat stats.hits / Float.ofNat (stats.hits + stats.misses))

/-- An entry with its weight. -/
structure Weighted (κ α : Type) where
  key : κ
  value : α
  weight : Nat
deriving Repr, DecidableEq

/-- A cache that drops the entries not used for longest once the total weight exceeds a bound.
The bound is soft: the entry inserted last stays, whatever its weight. -/
structure WeightedCache (κ α : Type) where
  maxWeight : Nat
  /-- The entries, the one used last in front. -/
  entries : List (Weighted κ α)
  totalWeight : Nat
  hits : Nat
  misses : Nat
  evictions : Nat
deriving Repr, DecidableEq

namespace WeightedCache

variable {κ α : Type} [DecidableEq κ]

/-- The cache without entries. -/
def empty (maxWeight : Nat) : WeightedCache κ α :=
  ⟨maxWeight, [], 0, 0, 0, 0⟩

/-- The entry under a key. -/
def find? (cache : WeightedCache κ α) (key : κ) : Option (Weighted κ α) :=
  cache.entries.find? (·.key = key)

/-- The value under a key; the look-up leaves no trace. -/
def peek? (cache : WeightedCache κ α) (key : κ) : Option α :=
  (cache.find? key).map (·.value)

/-- Whether there is an entry under a key. -/
def contains (cache : WeightedCache κ α) (key : κ) : Bool :=
  (cache.find? key).isSome

/-- The entries under other keys. -/
def others (cache : WeightedCache κ α) (key : κ) : List (Weighted κ α) :=
  cache.entries.filter (·.key ≠ key)

/-- Looks a key up; the entry found becomes the one used last. -/
def get (cache : WeightedCache κ α) (key : κ) : Option α × WeightedCache κ α :=
  match cache.find? key with
  | some entry =>
    (some entry.value,
      { cache with entries := entry :: cache.others key, hits := cache.hits + 1 })
  | none => (none, { cache with misses := cache.misses + 1 })

/-- Removes the entry under a key. -/
def remove (cache : WeightedCache κ α) (key : κ) : Option α × WeightedCache κ α :=
  match cache.find? key with
  | some entry =>
    (some entry.value,
      { cache with
        entries := cache.others key
        totalWeight := cache.totalWeight - entry.weight })
  | none => (none, cache)

/-- Drops entries, the one not used for longest first, while there are several of them and their
weight exceeds the bound. The entries stand with the one used last at the end. The result holds
the entries dropped, the entries kept, and their weight. -/
def shrink (maxWeight : Nat) : Nat → List (Weighted κ α) →
    List (Weighted κ α) × List (Weighted κ α) × Nat
  | total, oldest :: next :: rest =>
    if maxWeight < total then
      let (dropped, kept, total) := shrink maxWeight (total - oldest.weight) (next :: rest)
      (oldest :: dropped, kept, total)
    else ([], oldest :: next :: rest, total)
  | total, entries => ([], entries, total)

/-- Inserts an entry. The result tells what was pushed out, first of all a value replaced under
the same key. -/
def insert (cache : WeightedCache κ α) (key : κ) (value : α) (weight : Nat) :
    List (κ × α) × WeightedCache κ α :=
  let (replaced, cache) := cache.remove key
  let entries := ⟨key, value, weight⟩ :: cache.entries
  let total := addWeight cache.totalWeight weight
  let (dropped, kept, total) := shrink cache.maxWeight total entries.reverse
  let pushedOut := (replaced.map fun old => (key, old)).toList
    ++ dropped.map fun entry => (entry.key, entry.value)
  (pushedOut,
    { cache with
      entries := kept.reverse
      totalWeight := total
      evictions := cache.evictions + dropped.length })

/-- Removes the entries whose keys satisfy a condition; the result lists them, the one used last
first. -/
def removeWhere (cache : WeightedCache κ α) (condition : κ → Bool) :
    List (κ × α) × WeightedCache κ α :=
  let removed := cache.entries.filter fun entry => condition entry.key
  (removed.map fun entry => (entry.key, entry.value),
    { cache with
      entries := cache.entries.filter fun entry => !condition entry.key
      totalWeight := removed.foldl (fun total entry => total - entry.weight) cache.totalWeight })

/-- The number of entries. -/
def size (cache : WeightedCache κ α) : Nat :=
  cache.entries.length

/-- How the cache has performed, and what it holds. -/
def stats (cache : WeightedCache κ α) : CacheStats :=
  ⟨cache.hits, cache.misses, cache.evictions, cache.size, cache.totalWeight⟩

end WeightedCache

end CodeNav
