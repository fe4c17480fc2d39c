/-
Module: CodeNav.Proofs.Settings.FlatNumbers
Purpose: What becomes of the numbers in the flat variables of earlier deployments.
Main exports:
  Decimal.written?, Settings.FlatNumber, Settings.Sources.without, Settings.overridden_flat,
  Settings.isSome_ofTree?, Settings.Honoured, Settings.Ignored, Settings.Harmful,
  Settings.flat_number_effect
-/
import CodeNav.Proofs.Settings.Overrides
import CodeNav.Proofs.Success
import CodeNav.Settings.Load
import Mathlib.Data.List.Basic

namespace CodeNav

/-! ### Numerals of any size -/

/-- The integer that a text writes, with a sign or without one, however great it is. -/
def Decimal.written? (text : String) : Option Int :=
  let (negative, digits) := splitSign text.toList
  if isNatural digits then some (if negative then -(ofDigits digits : Int) else ofDigits digits)
  else none

theorem Decimal.integer?_eq (text : String) :
    integer? text = (written? text).filter fitsWord := by
  unfold integer? written?
  obtain ⟨negative, digits⟩ := splitSign text.toList
  by_cases digital : isNatural digits
  · simp [digital, Option.filter]
  · simp [digital]

namespace Settings

open Decimal (written? fitsWord)

/-! ### The settings with flat variables -/

/-- The settings whose numbers flat variables hold. -/
inductive FlatNumber where
  | softMaxBytes
  | maxUploadBytes
  | softMaxMemoryBytes
  | port
deriving DecidableEq, Repr

namespace FlatNumber

/-- The settings in the order in which their variables are read. -/
def all : List FlatNumber :=
  [softMaxBytes, maxUploadBytes, softMaxMemoryBytes, port]

/-- The name of the variable. -/
def name : FlatNumber → String
  | softMaxBytes => "LSIF_SOFT_MAX_STORAGE"
  | maxUploadBytes => "LSIF_MAX_FILE_SIZE"
  | softMaxMemoryBytes => "LSIF_SOFT_MAX_STORAGE_IN_MEMORY"
  | port => "LSIF_HTTP_PORT"

/-- The part of the settings in which the setting stands. -/
def part : FlatNumber → String
  | softMaxBytes => "storage"
  | maxUploadBytes => "storage"
  | softMaxMemoryBytes => "cache"
  | port => "server"

/-- The name of the setting in its part. -/
def key : FlatNumber → String
  | softMaxBytes => "soft_max_bytes"
  | maxUploadBytes => "max_upload_bytes"
  | softMaxMemoryBytes => "soft_max_memory_bytes"
  | port => "port"

/-- The place of the setting in its part. -/
def place : FlatNumber → Nat
  | softMaxBytes => 1
  | maxUploadBytes => 2
  | softMaxMemoryBytes => 0
  | port => 1

/-- The number of values that the setting can have. -/
def range : FlatNumber → Nat
  | port => capacity 16
  | _ => capacity 64

/-- The setting itself. -/
def of (number : FlatNumber) (settings : Settings) : Nat :=
  match number with
  | softMaxBytes => settings.storage.softMaxBytes
  | maxUploadBytes => settings.storage.maxUploadBytes
  | softMaxMemoryBytes => settings.cache.softMaxMemoryBytes
  | port => settings.server.port

/-- Whether a setting can have a number as its value. -/
def Takes (number : FlatNumber) (n : Int) : Prop :=
  0 ≤ n ∧ n < (number.range : Int)

instance (number : FlatNumber) (n : Int) : Decidable (number.Takes n) :=
  inferInstanceAs (Decidable (_ ∧ _))

/-- The variable of a setting with the path to it. -/
def entry (number : FlatNumber) : String × List String :=
  (number.name, [number.part, number.key])

theorem flatNumbers_eq : flatNumbers = all.map entry :=
  rfl

theorem mem_all (number : FlatNumber) : number ∈ all := by
  cases number <;> decide

theorem name_injective {number other : FlatNumber} (same : number.name = other.name) :
    number = other := by
  cases number <;> cases other <;> simp_all [name]

theorem path_injective {number other : FlatNumber}
    (same : (number.part, number.key) = (other.part, other.key)) : number = other := by
  cases number <;> cases other <;> simp_all [part, key]

/-- An entry of a table of flat variables that has to do with another setting. -/
def Elsewhere (number : FlatNumber) (entry : String × List String) : Prop :=
  entry.1 ≠ number.name ∧
    ∃ part key, entry.2 = [part, key] ∧ (part, key) ≠ (number.part, number.key)

theorem elsewhere_entry {number other : FlatNumber} (differ : other ≠ number) :
    number.Elsewhere other.entry :=
  ⟨fun same => differ (name_injective same), _, _, rfl, fun same => differ (path_injective same)⟩

theorem elsewhere_flags (number : FlatNumber) : ∀ entry ∈ flatFlags, number.Elsewhere entry := by
  intro entry member
  have flag : entry = ("LSIF_ENABLE_JSON", ["backends", "json"]) ∨
      entry = ("LSIF_ENABLE_GRAPH", ["backends", "graph"]) ∨
      entry = ("LSIF_ENABLE_BLOB", ["backends", "blob"]) := by
    simpa [flatFlags] using member
  rcases flag with rfl | rfl | rfl <;>
    exact ⟨by cases number <;> simp [name], _, _, rfl, by cases number <;> simp [part]⟩

theorem elsewhere_root (number : FlatNumber) :
    ∀ entry ∈ [("LSIF_STORAGE_ROOT", ["storage", "root"])], number.Elsewhere entry := by
  intro entry member
  rw [List.mem_singleton.mp member]
  exact ⟨by cases number <;> simp [name], _, _, rfl, by cases number <;> simp [part, key]⟩

end FlatNumber

/-! ### Sources without a variable -/

/-- Bindings without those of a variable. -/
def unbound (bindings : List (String × String)) (name : String) : List (String × String) :=
  bindings.filter (·.1 != name)

/-- Sources in which a variable is not set. -/
def Sources.without (sources : Sources) (name : String) : Sources :=
  { sources with bindings := unbound sources.bindings name }

theorem bindings_without (sources : Sources) (name : String) :
    (sources.without name).bindings = unbound sources.bindings name :=
  rfl

theorem lookup_unbound_self (bindings : List (String × String)) (name : String) :
    (unbound bindings name).lookup name = none := by
  apply List.lookup_eq_none_iff.mpr
  intro binding member
  have differ := (List.mem_filter.mp member).2
  simpa using Ne.symm (bne_iff_ne.mp differ)

/-- Flat variables are no nested ones. -/
theorem nestedVariables_unbound (bindings : List (String × String)) (number : FlatNumber) :
    nestedVariables (unbound bindings number.name) = nestedVariables bindings := by
  have flat : settingOf? number.name = none := by
    cases number <;> decide +kernel
  unfold nestedVariables unbound
  rw [List.filterMap_filter]
  apply List.filterMap_congr
  intro binding _
  by_cases same : binding.1 = number.name
  · simp [same, flat]
  · simp [same]

/-! ### Flat variables laid over a tree -/

/-- A variable that says nothing to some settings may as well not be set. -/
theorem addFlat_unbound (bindings : List (String × String)) (read : String → Option Tree)
    (root : Tree) {name : String} {names : List (String × List String)}
    (silent : ∀ entry ∈ names, entry.1 ≠ name ∨ (bindings.lookup name).bind read = none) :
    addFlat (unbound bindings name) read root names = addFlat bindings read root names := by
  unfold addFlat
  apply List.foldl_ext
  rintro root ⟨other, path⟩ member
  by_cases same : other = name
  · have nothing := (silent _ member).resolve_left (fun differ => differ same)
    simp only [same, lookup_unbound_self, nothing]
    rfl
  · have found : (unbound bindings name).lookup other = bindings.lookup other :=
      Tree.lookup_filter_ne bindings same
    simp only [found]

/-- Flat variables for other settings leave an override one. -/
theorem overridden_addFlat_others {bindings : List (String × String)}
    {read : String → Option Tree} (plain : ∀ text value, read text = some value → value.IsPlain)
    {names : List (String × List String)} {part key : String} {value before after : Tree}
    (elsewhere : ∀ entry ∈ names, ∃ otherPart otherKey, entry.2 = [otherPart, otherKey] ∧
      (otherPart, otherKey) ≠ (part, key))
    (overridden : Tree.Overridden part key value before after) :
    Tree.Overridden part key value (addFlat bindings read before names)
      (addFlat bindings read after names) := by
  induction names generalizing before after with
  | nil => exact overridden
  | cons entry rest ih =>
      obtain ⟨name, path⟩ := entry
      obtain ⟨otherPart, otherKey, rfl, differ⟩ := elsewhere _ List.mem_cons_self
      apply ih fun entry member => elsewhere entry (List.mem_cons_of_mem _ member)
      cases said : (bindings.lookup name).bind read with
      | none => simpa [said] using overridden
      | some other =>
          obtain ⟨text, _, readSo⟩ := Option.bind_eq_some_iff.mp said
          simpa [said] using overridden.putAt (plain text other readSo) differ

theorem isPlain_readNumber (text : String) (value : Tree) (read : readNumber text = some value) :
    value.IsPlain := by
  obtain ⟨n, _, rfl⟩ := Option.map_eq_some_iff.mp read
  trivial

theorem isPlain_readFlag (text : String) (value : Tree) (read : readFlag text = some value) :
    value.IsPlain := by
  obtain ⟨b, _, rfl⟩ := Option.map_eq_some_iff.mp read
  trivial

theorem isPlain_readText (text : String) (value : Tree) (read : readText text = some value) :
    value.IsPlain := by
  unfold readText at read
  split at read
  · cases read
  · cases read
    trivial

variable {bindings : List (String × String)} {number : FlatNumber} {text : String}

/-- A variable that is no number of 64 bits changes nothing. -/
theorem addFlatVariables_unread (bound : bindings.lookup number.name = some text)
    (unread : readNumber text = none) (root : Tree) :
    addFlatVariables root (unbound bindings number.name) = addFlatVariables root bindings := by
  have silent : (bindings.lookup number.name).bind readNumber = none := by
    rw [bound, Option.bind_some, unread]
  unfold addFlatVariables
  dsimp only
  rw [addFlat_unbound bindings readNumber root fun _ _ => .inr silent,
    addFlat_unbound bindings readFlag _ fun entry member =>
      .inl (number.elsewhere_flags entry member).1,
    addFlat_unbound bindings readText _ fun entry member =>
      .inl (number.elsewhere_root entry member).1]

/-- The numbers of the flat variables, with one of them set, override those without it. -/
theorem overridden_numbers {value : Tree} (bound : bindings.lookup number.name = some text)
    (read : readNumber text = some value) (root : Tree) {numbers : List FlatNumber}
    (nodup : numbers.Nodup) (member : number ∈ numbers) :
    Tree.Overridden number.part number.key value
      (addFlat (unbound bindings number.name) readNumber root (numbers.map FlatNumber.entry))
      (addFlat bindings readNumber root (numbers.map FlatNumber.entry)) := by
  induction numbers generalizing root with
  | nil => cases member
  | cons first rest ih =>
      obtain ⟨fresh, nodup⟩ := List.nodup_cons.mp nodup
      rw [List.map_cons]
      by_cases same : first = number
      · subst same
        have elsewhere : ∀ entry ∈ rest.map FlatNumber.entry, first.Elsewhere entry := by
          intro entry listed
          obtain ⟨other, member, rfl⟩ := List.mem_map.mp listed
          exact FlatNumber.elsewhere_entry fun again => fresh (again ▸ member)
        have skipped : addFlat (unbound bindings first.name) readNumber root
            (first.entry :: rest.map FlatNumber.entry) =
              addFlat bindings readNumber root (rest.map FlatNumber.entry) := by
          rw [← addFlat_unbound bindings readNumber root fun entry listed =>
            .inl (elsewhere entry listed).1]
          simp only [addFlat, List.foldl_cons, FlatNumber.entry, lookup_unbound_self]
          rfl
        have laid : addFlat bindings readNumber root (first.entry :: rest.map FlatNumber.entry) =
            addFlat bindings readNumber (root.putAt [first.part, first.key] value)
              (rest.map FlatNumber.entry) := by
          simp only [addFlat, List.foldl_cons, FlatNumber.entry, bound, Option.bind_some, read]
          rfl
        rw [skipped, laid]
        exact overridden_addFlat_others isPlain_readNumber
          (fun entry listed => (elsewhere entry listed).2)
          (Tree.overridden_putAt (isPlain_readNumber text value read))
      · have listed := (List.mem_cons.mp member).resolve_left (Ne.symm same)
        have found : (unbound bindings number.name).lookup first.name =
            bindings.lookup first.name :=
          Tree.lookup_filter_ne bindings fun again => same (FlatNumber.name_injective again)
        have next := ih (((bindings.lookup first.name).bind readNumber).elim root
          (root.putAt [first.part, first.key])) nodup listed
        simpa only [addFlat, List.foldl_cons, FlatNumber.entry, found] using next

/-- All flat variables, with a number among them, override those without it. -/
theorem overridden_flat {value : Tree} (bound : bindings.lookup number.name = some text)
    (read : readNumber text = some value) (root : Tree) :
    Tree.Overridden number.part number.key value
      (addFlatVariables root (unbound bindings number.name)) (addFlatVariables root bindings) := by
  unfold addFlatVariables
  dsimp only
  rw [addFlat_unbound bindings readFlag _ fun entry member =>
      .inl (number.elsewhere_flags entry member).1,
    addFlat_unbound bindings readText _ fun entry member =>
      .inl (number.elsewhere_root entry member).1]
  apply overridden_addFlat_others isPlain_readText
    fun entry member => (number.elsewhere_root entry member).2
  apply overridden_addFlat_others isPlain_readFlag
    fun entry member => (number.elsewhere_flags entry member).2
  rw [FlatNumber.flatNumbers_eq]
  exact overridden_numbers bound read root (by decide) number.mem_all

/-! ### What a tree says of the settings -/

/-- A setting as it is read from a tree: where it stands, and which values can be read. -/
structure Slot where
  part : String
  place : Nat
  key : String
  reads : Tree → Bool

/-- The settings that are read from the parts of a tree. -/
def slots : List Slot :=
  [⟨"server", 0, "host", (·.toText?.isSome)⟩,
   ⟨"server", 1, "port", fun value => (value.toNat? (capacity 16)).isSome⟩,
   ⟨"storage", 0, "root", (·.toText?.isSome)⟩,
   ⟨"storage", 1, "soft_max_bytes", fun value => (value.toNat? (capacity 64)).isSome⟩,
   ⟨"storage", 2, "max_upload_bytes", fun value => (value.toNat? (capacity 64)).isSome⟩,
   ⟨"cache", 0, "soft_max_memory_bytes", fun value => (value.toNat? (capacity 64)).isSome⟩,
   ⟨"cache", 1, "blob_cache_max_bytes", fun value => (value.toNat? (capacity 64)).isSome⟩,
   ⟨"backends", 0, "json", (·.toBool?.isSome)⟩,
   ⟨"backends", 1, "graph", (·.toBool?.isSome)⟩,
   ⟨"backends", 2, "blob", (·.toBool?.isSome)⟩,
   ⟨"converter", 0, "binary", fun value => (value.toText?.map some).isSome⟩,
   ⟨"logging", 0, "level", (·.toText?.isSome)⟩]

/-- Whether a setting can be read from a tree; one that is absent can. -/
def Slot.fits (slot : Slot) (root : Tree) : Bool :=
  match root.fields.lookup slot.part with
  | none => true
  | some (.table fields) => (fields.lookup slot.key).elim true slot.reads
  | some (.list items) => items[slot.place]?.elim true slot.reads
  | some _ => false

theorem isSome_setting {α : Type} (root : Tree) (part : String) (place : Nat) (name : String)
    (read : Tree → Option α) (default : α) :
    (setting (root.fields.lookup part) place name read default).isSome =
      Slot.fits ⟨part, place, name, fun value => (read value).isSome⟩ root := by
  unfold setting Slot.fits
  match root.fields.lookup part with
  | none => rfl
  | some (.table fields) =>
      dsimp only
      cases fields.lookup name <;> rfl
  | some (.list items) =>
      dsimp only
      cases items[place]? <;> rfl
  | some (.bool _) | some (.integer _) | some (.real _) | some (.text _) => rfl

theorem isSome_bind_eq {α β : Type} {x : Option α} {f : α → Option β} {first rest : Bool}
    (here : x.isSome = first) (later : ∀ a, (f a).isSome = rest) :
    (x >>= f).isSome = (first && rest) := by
  subst here
  cases x with
  | none => rfl
  | some a => exact later a

/-- Settings are read from a tree if each of them can be. -/
theorem isSome_ofTree? (environment : String) (root : Tree) :
    (ofTree? environment root).isSome =
      ((root.fields.lookup "env").elim true (·.toText?.isSome) && slots.all (·.fits root)) := by
  unfold ofTree? slots
  refine isSome_bind_eq ?_ fun _ => ?_
  · dsimp only
    cases root.fields.lookup "env" <;> rfl
  repeat refine isSome_bind_eq (isSome_setting ..) fun _ => ?_
  rfl

/-- A tree from which settings are read tells the setting under its name in its part. -/
theorem setting_of_ofTree? {environment : String} {root : Tree} {settings : Settings}
    (read : ofTree? environment root = some settings) (number : FlatNumber) :
    ∃ otherwise, setting (root.fields.lookup number.part) number.place number.key
      (Tree.toNat? number.range) otherwise = some (number.of settings) := by
  unfold ofTree? at read
  obtain ⟨_, _, read⟩ := Option.bind_eq_some_iff.mp read
  obtain ⟨_, _, read⟩ := Option.bind_eq_some_iff.mp read
  obtain ⟨port, portRead, read⟩ := Option.bind_eq_some_iff.mp read
  obtain ⟨_, _, read⟩ := Option.bind_eq_some_iff.mp read
  obtain ⟨softMax, softMaxRead, read⟩ := Option.bind_eq_some_iff.mp read
  obtain ⟨maxUpload, maxUploadRead, read⟩ := Option.bind_eq_some_iff.mp read
  obtain ⟨memory, memoryRead, read⟩ := Option.bind_eq_some_iff.mp read
  obtain ⟨_, _, read⟩ := Option.bind_eq_some_iff.mp read
  obtain ⟨_, _, read⟩ := Option.bind_eq_some_iff.mp read
  obtain ⟨_, _, read⟩ := Option.bind_eq_some_iff.mp read
  obtain ⟨_, _, read⟩ := Option.bind_eq_some_iff.mp read
  obtain ⟨_, _, read⟩ := Option.bind_eq_some_iff.mp read
  obtain ⟨_, _, read⟩ := Option.bind_eq_some_iff.mp read
  obtain rfl := Option.some.inj read
  cases number with
  | softMaxBytes => exact ⟨_, softMaxRead⟩
  | maxUploadBytes => exact ⟨_, maxUploadRead⟩
  | softMaxMemoryBytes => exact ⟨_, memoryRead⟩
  | port => exact ⟨_, portRead⟩

/-! ### A number laid over a tree -/

section

variable {value before after : Tree}
  (overridden : Tree.Overridden number.part number.key value before after)
include overridden

theorem setting_overridden {α : Type} (place : Nat) (read : Tree → Option α) (default : α) :
    setting (after.fields.lookup number.part) place number.key read default = read value := by
  obtain ⟨_, fields, here, held, _⟩ := overridden
  unfold setting
  simp [here, held]

/-- Another setting that could be read still can be. -/
theorem fits_overridden_others {slot : Slot}
    (differ : (slot.part, slot.key) ≠ (number.part, number.key))
    (fits : slot.fits before = true) : slot.fits after = true := by
  obtain ⟨apart, fields, here, _, rest⟩ := overridden
  unfold Slot.fits at fits ⊢
  by_cases same : slot.part = number.part
  · have away : slot.key ≠ number.key := fun again => differ (by rw [same, again])
    rw [same] at fits ⊢
    simp only [here, rest slot.key away, Tree.fieldsAt]
    match before.fields.lookup number.part, fits with
    | none, _ => rfl
    | some (.table inner), fits => exact fits
    | some (.list items), _ => rfl
  · rw [apart slot.part same]
    exact fits

/-- The setting itself can be read if the value fits it. -/
theorem fits_overridden_self {slot : Slot} (listed : slot ∈ slots)
    (same : (slot.part, slot.key) = (number.part, number.key))
    (fits : (value.toNat? number.range).isSome = true) : slot.fits after = true := by
  obtain ⟨_, fields, here, held, _⟩ := overridden
  obtain ⟨samePart, sameKey⟩ := Prod.mk.inj same
  have reads : slot.reads value = (value.toNat? number.range).isSome := by
    simp only [slots, List.mem_cons, List.not_mem_nil, or_false] at listed
    rcases listed with rfl | rfl | rfl | rfl | rfl | rfl | rfl | rfl | rfl | rfl | rfl | rfl <;>
      cases number <;> first | rfl | exact absurd sameKey (by decide)
  unfold Slot.fits
  rw [samePart, here]
  dsimp only
  rw [sameKey, held, Option.elim_some, reads]
  exact fits

/-- A tree with a number laid over it can be read if the number fits and the tree could be read
before. -/
theorem isSome_ofTree?_overridden (environment : String)
    (fits : (value.toNat? number.range).isSome = true)
    (read : (ofTree? environment before).isSome = true) :
    (ofTree? environment after).isSome = true := by
  rw [isSome_ofTree?, Bool.and_eq_true, List.all_eq_true] at read ⊢
  have apart : "env" ≠ number.part := by cases number <;> decide
  constructor
  · rw [overridden.apart "env" apart]
    exact read.1
  · intro slot listed
    by_cases same : (slot.part, slot.key) = (number.part, number.key)
    · exact fits_overridden_self overridden listed same fits
    · exact fits_overridden_others overridden same (read.2 slot listed)

end

/-! ### Loading -/

/-- The layers below the flat variables. -/
def nestedLayers (environment : String) (sources : Sources) : Except LoadFault Tree := do
  let start := (Tree.table []).put "env" (.text environment)
  let files ← (fileNames environment).foldlM (addFile sources) start
  return files.overlay (nestedVariables sources.bindings)

/-- Settings are read from a tree, or do not fit. -/
def settle (environment : String) (root : Tree) : Except LoadFault Settings :=
  match ofTree? environment root with
  | some settings => .ok settings
  | none => .error .values

theorem load_eq (environment : String) (sources : Sources) :
    load environment sources = nestedLayers environment sources >>= fun root =>
      settle environment (addFlatVariables root sources.bindings) := by
  unfold load assemble nestedLayers settle
  dsimp only
  cases (fileNames environment).foldlM (addFile sources) _ with
  | error fault => exact Eq.refl (Except.error fault)
  | ok files => rfl

theorem nestedLayers_without (environment : String) (sources : Sources) (number : FlatNumber) :
    nestedLayers environment (sources.without number.name) = nestedLayers environment sources := by
  unfold nestedLayers Sources.without
  rw [nestedVariables_unbound]
  rfl

/-- A variable is honoured: its number is the setting whatever else is said of it, and loading does
not fail for it. -/
structure Honoured (number : FlatNumber) (n : Int) (environment : String) (sources : Sources) :
    Prop where
  value : ∀ settings, load environment sources = .ok settings → (number.of settings : Int) = n
  harmless : ∀ fault, load environment sources = .error fault →
    load environment (sources.without number.name) = .error fault

/-- A variable is ignored: all is loaded as if it were not set. -/
def Ignored (number : FlatNumber) (environment : String) (sources : Sources) : Prop :=
  load environment sources = load environment (sources.without number.name)

/-- A variable keeps the settings from being loaded, if they are not kept from it anyway by a
malformed file. -/
def Harmful (number : FlatNumber) (environment : String) (sources : Sources) : Prop :=
  load environment sources = .error .values ∨
    load environment sources = .error .sources ∧
      load environment (sources.without number.name) = .error .sources

theorem toNat?_integer (range : Nat) (n : Int) :
    (Tree.integer n).toNat? range = if 0 ≤ n ∧ n < (range : Int) then some n.toNat else none := by
  unfold Tree.toNat?
  by_cases natural : 0 ≤ n
  · have same : n.toNat < range ↔ n < (range : Int) := by omega
    simp only [natural, if_true, true_and, Option.bind_eq_bind, Option.bind_some, same]
  · simp [natural]

/-- Layers that cannot be assembled are kept from it by a malformed file. -/
theorem nestedLayers_error {environment : String} {sources : Sources} {fault : LoadFault}
    (failed : nestedLayers environment sources = .error fault) : fault = .sources := by
  have files (names : List String) (root : Tree) :
      names.foldlM (addFile sources) root = .error fault → fault = .sources := by
    induction names generalizing root with
    | nil => exact nofun
    | cons name rest ih =>
        rw [List.foldlM_cons]
        intro failed
        cases added : addFile sources root name with
        | ok next =>
            rw [added] at failed
            exact ih next failed
        | error first =>
            rw [added] at failed
            cases failed
            unfold addFile at added
            split at added
            · cases added
            · split at added <;> cases added
              rfl
  unfold nestedLayers at failed
  dsimp only at failed
  cases laid : (fileNames environment).foldlM (addFile sources)
      ((Tree.table []).put "env" (.text environment)) with
  | ok root =>
      rw [laid] at failed
      cases failed
  | error first =>
      rw [laid] at failed
      cases failed
      exact files _ _ laid

section

variable {sources : Sources} {n : Int}

theorem ignored_of_unread (bound : sources.bindings.lookup number.name = some text)
    (unread : readNumber text = none) (environment : String) :
    Ignored number environment sources := by
  unfold Ignored
  rw [load_eq, load_eq, nestedLayers_without, bindings_without]
  simp only [addFlatVariables_unread bound unread]

/-- A number that fits its setting is honoured. -/
theorem honoured_of_takes (bound : sources.bindings.lookup number.name = some text)
    (read : readNumber text = some (.integer n)) (takes : number.Takes n) (environment : String) :
    Honoured number n environment sources := by
  have value : (Tree.integer n).toNat? number.range = some n.toNat :=
    (toNat?_integer number.range n).trans (if_pos takes)
  constructor
  · intro settings loaded
    rw [load_eq] at loaded
    obtain ⟨root, _, settled⟩ := Success.bind_eq_ok.mp loaded
    unfold settle at settled
    split at settled
    · rename_i found
      cases settled
      obtain ⟨otherwise, told⟩ := setting_of_ofTree? found number
      rw [setting_overridden (overridden_flat bound read root), value] at told
      rw [← Option.some.inj told]
      exact Int.toNat_of_nonneg takes.1
    · cases settled
  · intro fault failed
    rw [load_eq] at failed ⊢
    rw [nestedLayers_without, bindings_without]
    cases layers : nestedLayers environment sources with
    | error first =>
        rw [layers] at failed
        exact Except.error.inj failed ▸ Eq.refl (Except.error first)
    | ok root =>
        rw [layers, Success.ok_bind] at failed
        rw [Success.ok_bind]
        unfold settle at failed ⊢
        cases found : ofTree? environment (addFlatVariables root sources.bindings) with
        | some settings =>
            rw [found] at failed
            cases failed
        | none =>
            rw [found] at failed
            cases failed
            cases before : ofTree? environment
                (addFlatVariables root (unbound sources.bindings number.name)) with
            | none => rfl
            | some settings =>
                have still := isSome_ofTree?_overridden (overridden_flat bound read root)
                  environment (by rw [value]; rfl) (Option.isSome_of_eq_some before)
                rw [found] at still
                cases still

/-- A number of 64 bits that does not fit its setting keeps all settings from being loaded. -/
theorem harmful_of_not_takes (bound : sources.bindings.lookup number.name = some text)
    (read : readNumber text = some (.integer n)) (exceeds : ¬number.Takes n)
    (environment : String) : Harmful number environment sources := by
  have value : (Tree.integer n).toNat? number.range = none :=
    (toNat?_integer number.range n).trans (if_neg exceeds)
  unfold Harmful
  rw [load_eq, load_eq, nestedLayers_without]
  cases layers : nestedLayers environment sources with
  | error fault =>
      obtain rfl := nestedLayers_error layers
      exact .inr ⟨rfl, rfl⟩
  | ok root =>
      left
      rw [Success.ok_bind]
      unfold settle
      cases found : ofTree? environment (addFlatVariables root sources.bindings) with
      | none => rfl
      | some settings =>
          obtain ⟨otherwise, told⟩ := setting_of_ofTree? found number
          rw [setting_overridden (overridden_flat bound read root), value] at told
          cases told

end

/-- What becomes of a flat variable that holds a number. One that fits 64 bits with a sign and its
setting is honoured; one that fits these bits but not its setting is harmful. Everything else is
ignored, also a number too great for these bits that its setting could have. -/
theorem flat_number_effect (number : FlatNumber) (environment : String) (sources : Sources)
    {text : String} (bound : sources.bindings.lookup number.name = some text) :
    match written? (Text.trim text) with
    | none => Ignored number environment sources
    | some n =>
      if fitsWord n then
        if number.Takes n then Honoured number n environment sources
        else Harmful number environment sources
      else Ignored number environment sources := by
  have read : readNumber text = ((written? (Text.trim text)).filter fitsWord).map .integer := by
    unfold readNumber
    rw [Decimal.integer?_eq]
  cases written : written? (Text.trim text) with
  | none =>
      rw [written] at read
      exact ignored_of_unread bound read environment
  | some n =>
      rw [written] at read
      dsimp only
      split_ifs with fits takes
      · exact honoured_of_takes bound (by rw [read]; simp [Option.filter, fits]) takes environment
      · exact harmful_of_not_takes bound (by rw [read]; simp [Option.filter, fits]) takes
          environment
      · exact ignored_of_unread bound (by rw [read]; simp [Option.filter, fits]) environment

/-- Sources in which a nested variable gives the port a value that it cannot have. -/
def overruled : Sources :=
  ⟨fun _ => none, [("LSIF__SERVER__PORT", "70000"), ("LSIF_HTTP_PORT", " 5000 ")]⟩

theorem flat_number_effect_overruled :
    overruled.bindings.lookup FlatNumber.port.name = some " 5000 " ∧
      Honoured .port 5000 "test" overruled := by
  have bound : overruled.bindings.lookup FlatNumber.port.name = some " 5000 " := by decide
  have written : written? (Text.trim " 5000 ") = some 5000 := by decide
  have fits : fitsWord 5000 = true := by decide
  have takes : FlatNumber.port.Takes 5000 := by decide
  have effect := flat_number_effect .port "test" overruled bound
  rw [written] at effect
  dsimp only at effect
  rw [if_pos fits, if_pos takes] at effect
  exact ⟨bound, effect⟩

/-- Sources with a single variable. -/
def single (name text : String) : Sources :=
  ⟨fun _ => none, [(name, text)]⟩

theorem load_unset (number : FlatNumber) (text : String) :
    load "test" ((single number.name text).without number.name) = .ok (default "test") := by
  have none : (single number.name text).without number.name = ⟨fun _ => none, []⟩ := by
    simp [single, Sources.without, unbound]
  rw [none]
  rfl

/-- A number that its setting could have may be ignored, and one that it cannot have may keep all
settings from being loaded. -/
theorem flat_number_may_fail :
    load "test" (single "LSIF_MAX_FILE_SIZE" "9223372036854775808") = .ok (default "test") ∧
      (default "test").storage.maxUploadBytes ≠ 9223372036854775808 ∧
      load "test" (single "LSIF_HTTP_PORT" "70000") = .error .values ∧
      load "test" ((single "LSIF_HTTP_PORT" "70000").without "LSIF_HTTP_PORT") =
        .ok (default "test") := by
  have unread : readNumber "9223372036854775808" = none := by decide
  have read : readNumber "70000" = some (.integer 70000) := rfl
  have ignored : Ignored .maxUploadBytes "test" (single "LSIF_MAX_FILE_SIZE" _) :=
    ignored_of_unread rfl unread "test"
  have harmful : Harmful .port "test" (single "LSIF_HTTP_PORT" _) :=
    harmful_of_not_takes rfl read (by decide) "test"
  have unset := load_unset .port "70000"
  refine ⟨ignored.trans (load_unset .maxUploadBytes _), by decide, ?_, unset⟩
  rcases harmful with failed | ⟨_, malformed⟩
  · exact failed
  · cases malformed.symm.trans unset

end Settings

end CodeNav
