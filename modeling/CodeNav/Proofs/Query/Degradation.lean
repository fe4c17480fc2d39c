/-
Module: CodeNav.Proofs.Query.Degradation
Purpose: What failures in other repositories take away from an answer.
Main exports:
  Surroundings.consulted, Query.Contained, Query.remote_failures_contained
-/
import CodeNav.Proofs.Service.Surroundings

namespace CodeNav

open Stateful

/-! ### Looking into other dumps -/

namespace Surroundings

variable {σ : Type} (w : Surroundings σ)

/-- What comes of opening and reading the dump of a target. -/
def look (target : Target) : ExceptT Failure (StateM σ) Source :=
  Steps.amid w do Steps.source (← Steps.openDatabase target)

/-- What comes of looking into the dumps of some targets, one after the other. -/
def looks : List Target → σ → List (Target × Except Failure Source)
  | [], _ => []
  | target :: others, s => (target, (w.look target s).1) :: looks others (w.look target s).2

theorem map_fst_looks (targets : List Target) (s : σ) :
    (w.looks targets s).map (·.1) = targets := by
  induction targets generalizing s with
  | nil => rfl
  | cons target others ih => rw [looks, List.map_cons, ih]

/-- What the users of an identifier of a package are found to store.  Without an index there are
none. -/
def consulted (package : PackageKey) (moniker : Moniker) (s : σ) :
    List (Target × Except Failure Source) :=
  match w.comes .packages s with
  | (.ok index, t) => w.looks (index.users package moniker.identifier) t
  | (.error _, _) => []

end Surroundings

/-- The references to a moniker that one of the targets contributes. -/
def Query.contribution (moniker : Moniker) : Target × Except Failure Source → List Location
  | (target, .ok source) => Uncached.addressed target .references moniker source
  | (_, .error _) => []

namespace Steps

variable {σ : Type} (w : Surroundings σ)

theorem amid_remoteLocations (target : Target) (kind : RowKind) (moniker : Moniker) :
    amid w (remoteLocations target kind moniker) =
      (do return Uncached.addressed target kind moniker (← w.look target)) := by
  simp only [remoteLocations, monikerLocations, Surroundings.look, amid_bind, bind_assoc]
  rfl

/-- What cannot be looked up contributes nothing. -/
theorem amid_contribution (target : Target) (moniker : Moniker) (s : σ) :
    amid w (orNothing (remoteLocations target .references moniker)) s =
      (.ok (Query.contribution moniker (target, (w.look target s).1)), (w.look target s).2) := by
  rw [amid_orNothing, amid_remoteLocations, bind_run]
  rcases w.look target s with ⟨_ | source, t⟩ <;> rfl

theorem amid_contributions (moniker : Moniker) (targets : List Target) (s : σ) :
    ∃ t, amid w (forTargets
        (fun target => orNothing (remoteLocations target .references moniker)) targets) s =
      (.ok ((w.looks targets s).map (Query.contribution moniker)), t) := by
  induction targets generalizing s with
  | nil => exact ⟨s, rfl⟩
  | cons target others ih =>
      obtain ⟨t, rest⟩ := ih (w.look target s).2
      refine ⟨t, ?_⟩
      rw [forTargets, amid_bind, bind_ok (amid_contribution w target moniker s), amid_bind,
        bind_ok rest]
      rfl

theorem amid_packageIndex (s : σ) : amid w packageIndex s = w.comes .packages s := by
  change amid w (only .packages >>= ofExcept) s = _
  rw [amid_bind]
  rfl

theorem amid_usersOf (package : PackageKey) (moniker : Moniker) (s : σ) :
    amid w (usersOf package moniker) s =
      ((w.comes .packages s).1.map (·.users package moniker.identifier),
        (w.comes .packages s).2) := by
  rw [usersOf, amid_bind, bind_run, amid_packageIndex]
  rcases w.comes .packages s with ⟨_ | _, _⟩ <;> rfl

/-- Whatever goes wrong, there is an answer: what those contribute that can be looked into. -/
theorem amid_remoteReferences {document : Document} {package : PackageKey} {moniker : Moniker}
    (known : Query.packageKey? document moniker = some package) (s : σ) :
    (amid w (remoteReferences document moniker) s).1 =
      .ok ((w.consulted package moniker s).flatMap (Query.contribution moniker)) := by
  rw [remoteReferences, known]
  dsimp only
  rw [amid_bind, bind_ok (amid_orNothing w _ s), amid_usersOf, Surroundings.consulted]
  rcases w.comes .packages s with ⟨failure | index, t⟩
  · rfl
  · obtain ⟨u, run⟩ := amid_contributions w moniker (index.users package moniker.identifier) t
    dsimp only [Except.map, Except.toOption, Option.getD_some]
    rw [amid_bind, bind_ok run]
    rfl

end Steps

/-! ### Queries -/

namespace Query

/-- The moniker under which the symbol of a range is offered to other repositories. -/
def exportOf? (document : Document) (entry : RangeEntry) : Option Moniker :=
  (document.findMonikers entry.node).find? (·.kind = .exported)

/-- One target comes to the same in two runs, unless it fails in the second. -/
def SameUnless (failing : Target → Bool) (a b : Target × Except Failure Source) : Prop :=
  a.1 = b.1 ∧ if failing a.1 then ∃ failure, b.2 = .error failure else b.2 = a.2

/-- Failing targets take their own contributions away, and nothing else. -/
theorem flatMap_contribution {failing : Target → Bool} {moniker : Moniker}
    {some others : List (Target × Except Failure Source)}
    (same : List.Forall₂ (SameUnless failing) some others) :
    others.flatMap (contribution moniker) =
      (some.filter fun one => !failing one.1).flatMap (contribution moniker) := by
  induction same with
  | nil => rfl
  | @cons a b _ _ first rest ih =>
      obtain ⟨target, outcome⟩ := a
      obtain ⟨_, after⟩ := b
      obtain ⟨rfl, comes⟩ := first
      rw [List.flatMap_cons, ih]
      cases fails : failing target with
      | true =>
          rw [fails] at comes
          obtain ⟨failure, failed⟩ := comes
          cases failed
          simp [fails, contribution]
      | false =>
          rw [fails] at comes
          cases comes
          simp [fails]

/-- What there is of references in some surroundings: those found in the own dump, and what other
targets contribute. -/
structure Contained [Gzip.Compressor] {σ : Type} (w : Surroundings σ) (database : Database)
    (path : String) (position : Position) (document : Document) (entry : RangeEntry)
    (found : List Location) (u : σ) (outcome : Except Failure (Option (List Location))) : Prop where
  /-- The references in the own dump depend on the dump alone. -/
  own : ∀ source, (∀ v read, (w.comes (.read database) v).1 = .ok read → read = source) →
    found = Uncached.localReferences source document path entry
  /-- Nobody is asked about a symbol that is not offered to others as part of a package. -/
  alone : (exportOf? document entry).bind (packageKey? document) = none → outcome = .ok (some found)
  /-- Without an index the own references are left. -/
  unindexed : ∀ failure, (w.comes .packages u).1 = .error failure → outcome = .ok (some found)
  /-- All users contribute what is recorded in their dumps, in the order of the index. -/
  others : ∀ moniker package, exportOf? document entry = some moniker →
    packageKey? document moniker = some package →
    outcome = .ok (some (found ++ (w.consulted package moniker u).flatMap (contribution moniker))) ∧
    ∀ index, (w.comes .packages u).1 = .ok index →
      (w.consulted package moniker u).map (·.1) = index.users package moniker.identifier
  /-- If some of the users fail, what they contributed is missing. -/
  fewer : ∀ moniker package, exportOf? document entry = some moniker →
    packageKey? document moniker = some package →
    ∀ {τ : Type} (failing : Target → Bool) (w' : Surroundings τ) (s t v : τ),
    Steps.amid w' (Steps.readDocument database path) s = (.ok document, t) →
    Steps.amid w' (Steps.localReferences database document path entry) t = (.ok found, v) →
    List.Forall₂ (SameUnless failing) (w.consulted package moniker u)
      (w'.consulted package moniker v) →
    (Steps.amid w' (Steps.references database path position) s).1 =
      .ok (some (found ++ ((w.consulted package moniker u).filter fun one =>
        !failing one.1).flatMap (contribution moniker)))

end Query

namespace Steps

variable {σ : Type} {w : Surroundings σ} {database : Database} {path : String} {s t u : σ}
  {document : Document} {position : Position} {entry : RangeEntry} {found : List Location}

/-- If whatever is read of the own database is a dump, the references found there are those of the
dump. -/
theorem eq_localReferences {source : Source}
    (same : ∀ v read, (w.comes (.read database) v).1 = .ok read → read = source)
    (run : amid w (localReferences database document path entry) t = (.ok found, u)) :
    found = Uncached.localReferences source document path entry := by
  unfold localReferences at run
  unfold Uncached.localReferences
  cases own : document.reference? entry.node with
  | some result =>
      rw [own] at run
      cases run
      rfl
  | none =>
      rw [own] at run
      dsimp only at run ⊢
      rw [monikerReferences_eq] at run
      rw [eq_firstRows same run, Uncached.monikerReferences_eq]

section

variable [Gzip.Compressor] (blob : amid w (readDocument database path) s = (.ok document, t))
  (sought : document.findRange? position = some entry)
  (locally : amid w (localReferences database document path entry) t = (.ok found, u))
include blob sought locally

theorem amid_references :
    amid w (references database path position) s =
      (match Query.exportOf? document entry with
      | none => pure (some found)
      | some moniker => (do
        return some (found ++ (← amid w (remoteReferences document moniker))))) u := by
  rw [references, amid_bind, bind_ok blob, sought]
  dsimp only
  rw [amid_bind, bind_ok locally]
  unfold Query.exportOf?
  cases (document.findMonikers entry.node).find? fun m : Moniker => m.kind = .exported with
  | none => rfl
  | some moniker =>
      dsimp only
      rw [amid_bind]
      rfl

/-- References to a symbol that is not offered as part of a package. -/
theorem amid_references_alone
    (unoffered : (Query.exportOf? document entry).bind (Query.packageKey? document) = none) :
    (amid w (references database path position) s).1 = .ok (some found) := by
  rw [amid_references blob sought locally]
  cases exported : Query.exportOf? document entry with
  | none => rfl
  | some moniker =>
      rw [exported, Option.bind_some] at unoffered
      have nobody : amid w (remoteReferences document moniker) u = (.ok [], u) := by
        rw [remoteReferences, unoffered]
        rfl
      dsimp only
      rw [bind_ok nobody, List.append_nil]
      rfl

/-- References to a symbol that is offered as part of a package. -/
theorem amid_references_offered {moniker : Moniker} {package : PackageKey}
    (exported : Query.exportOf? document entry = some moniker)
    (known : Query.packageKey? document moniker = some package) :
    (amid w (references database path position) s).1 =
      .ok (some (found ++
        (w.consulted package moniker u).flatMap (Query.contribution moniker))) := by
  rw [amid_references blob sought locally, exported]
  dsimp only
  rw [bind_fst (amid_remoteReferences w known u)]
  rfl

/-- Nothing that goes wrong elsewhere reaches the references in the own dump. -/
theorem contained :
    Query.Contained w database path position document entry found u
      (amid w (references database path position) s).1 where
  own source same := eq_localReferences same locally
  alone := amid_references_alone blob sought locally
  unindexed failure broken := by
    cases exported : Query.exportOf? document entry with
    | none => exact amid_references_alone blob sought locally (by rw [exported]; rfl)
    | some moniker =>
        cases known : Query.packageKey? document moniker with
        | none =>
            exact amid_references_alone blob sought locally
              (by rw [exported, Option.bind_some, known])
        | some package =>
            have nobody : w.consulted package moniker u = [] := by
              unfold Surroundings.consulted
              generalize w.comes .packages u = asked at broken
              obtain ⟨_, _⟩ := asked
              cases broken
              rfl
            rw [amid_references_offered blob sought locally exported known, nobody,
              List.flatMap_nil, List.append_nil]
  others moniker package exported known := by
    refine ⟨amid_references_offered blob sought locally exported known, fun index asked => ?_⟩
    unfold Surroundings.consulted
    generalize w.comes .packages u = answer at asked ⊢
    obtain ⟨_, v⟩ := answer
    cases asked
    exact w.map_fst_looks _ v
  fewer moniker package exported known _ failing w' s' t' v' blob' locally' same := by
    rw [amid_references_offered blob' sought locally' exported known,
      Query.flatMap_contribution same]

end

end Steps

namespace Query

/-- Failures in other repositories only take away what those repositories contribute: the references
in the own dump are always found, and definitions never end in somebody else's failure. -/
theorem remote_failures_contained [Gzip.Compressor] (database : Database) (path : String)
    (position : Position) :
    (references database path position =
        Steps.amid .alone (Steps.references database path position) ∧
      definitions database path position =
        Steps.amid .alone (Steps.definitions database path position)) ∧
    ∀ {σ : Type} (w : Surroundings σ) (s t : σ) (document : Document),
      Steps.amid w (Steps.readDocument database path) s = (.ok document, t) →
      (document.findRange? position = none →
        (Steps.amid w (Steps.references database path position) s).1 = .ok none) ∧
      (∀ entry found u, document.findRange? position = some entry →
        Steps.amid w (Steps.localReferences database document path entry) t = (.ok found, u) →
        Contained w database path position document entry found u
          (Steps.amid w (Steps.references database path position) s).1) ∧
      ((∀ entry, document.findRange? position = some entry →
          document.definition? entry.node = none →
          ∃ rows, (Steps.amid w (Steps.firstRows database .definitions
            ((document.findMonikers entry.node).takeWhile (·.kind ≠ .imported))) t).1 = .ok rows) →
        ∃ result, (Steps.amid w (Steps.definitions database path position) s).1 = .ok result) := by
  refine ⟨⟨?_, ?_⟩, fun w s t document blob => ⟨fun nothing => ?_, fun entry found u => ?_,
    fun rows => ?_⟩⟩
  · rw [Steps.amid_alone, Steps.inRow_references]
  · rw [Steps.amid_alone, Steps.inRow_definitions]
  · rw [Steps.references, Steps.amid_bind, bind_ok blob, nothing]
    rfl
  · exact Steps.contained blob
  · rw [Steps.amid_definitions blob]
    cases sought : document.findRange? position with
    | none => exact ⟨_, rfl⟩
    | some entry =>
        dsimp only
        cases own : document.definition? entry.node with
        | some result => exact ⟨_, rfl⟩
        | none =>
            obtain ⟨found, looked⟩ := rows entry sought own
            exact Steps.amid_monikerDefinitions_ok looked

open scoped Gzip

namespace OfferedSample

/-- A document whose only range is offered to others as part of a package. -/
def document : Document :=
  { Document.empty with
    orderedRanges := [⟨⟨⟨0, 0⟩, ⟨0, 4⟩⟩, { ChainNode.empty with monikers := [⟨"10"⟩] }⟩]
    monikers := (∅ : Table Moniker).insert ⟨"10"⟩ ⟨"npm", "p:lib:f", .exported, some ⟨"11"⟩⟩
    packages := (∅ : Table Package).insert ⟨"11"⟩ ⟨"p", "1.0.0"⟩ }

/-- Two targets use it. -/
def first : Target := ⟨"s", "b"⟩

def second : Target := ⟨"t", "c"⟩

def index : PackageIndex :=
  ⟨[], [⟨⟨"npm", "p", "1.0.0"⟩, "p:lib:f", first⟩, ⟨⟨"npm", "p", "1.0.0"⟩, "p:lib:f", second⟩]⟩

/-- The database of each target, with a reference from outside. -/
def database : Database :=
  ⟨0, ⟨"r", "a"⟩, ⟨.json, "f", 0,
    .whole .empty ⟨[], [⟨"npm", "p::f", "u", ⟨⟨2, 0⟩, ⟨2, 4⟩⟩⟩]⟩⟩⟩

/-- All databases can be opened, unless they fail. -/
def around (failing : Target → Bool) : Surroundings Unit :=
  .steady document (.ok index) fun target =>
    if failing target then .error (.noData target.key) else .ok database

theorem users_index : index.users ⟨"npm", "p", "1.0.0"⟩ "p:lib:f" = [first, second] := by
  have sorted : [first, second].mergeSort (fun a b => (compare a b).isLE) = [first, second] :=
    List.mergeSort_of_pairwise (by simp; decide +kernel)
  change (([first, second].mergeSort fun a b => (compare a b).isLE)).eraseDups = _
  rw [sorted]
  rfl

end OfferedSample

open OfferedSample in
theorem remote_failures_contained_sample :
    (Steps.amid (around fun _ => false) (Steps.references database "a" ⟨0, 1⟩) ()).1 =
      .ok (some [.remote "s" "b" "u" ⟨⟨2, 0⟩, ⟨2, 4⟩⟩, .remote "t" "c" "u" ⟨⟨2, 0⟩, ⟨2, 4⟩⟩]) ∧
    (Steps.amid (around (· = first)) (Steps.references database "a" ⟨0, 1⟩) ()).1 =
      .ok (some [.remote "t" "c" "u" ⟨⟨2, 0⟩, ⟨2, 4⟩⟩]) := by
  let entry : RangeEntry := ⟨⟨⟨0, 0⟩, ⟨0, 4⟩⟩, { ChainNode.empty with monikers := [⟨"10"⟩] }⟩
  let moniker : Moniker := ⟨"npm", "p:lib:f", .exported, some ⟨"11"⟩⟩
  have sought : document.findRange? ⟨0, 1⟩ = some entry := by decide +kernel
  have exported : exportOf? document entry = some moniker := by decide +kernel
  have known : packageKey? document moniker = some ⟨"npm", "p", "1.0.0"⟩ := by decide +kernel
  have nothing (failing : Target → Bool) : Steps.amid (around failing)
      (Steps.localReferences database document "a" entry) () = (.ok [], ()) := by
    have monikers : document.findMonikers entry.node = [moniker] := by decide +kernel
    have unreferenced : document.reference? entry.node = none := by decide +kernel
    rw [Steps.localReferences, unreferenced, monikers]
    rfl
  have asked (failing : Target → Bool) :
      (around failing).consulted ⟨"npm", "p", "1.0.0"⟩ moniker () =
        (around failing).looks [first, second] () :=
    congrArg ((around failing).looks · ()) users_index
  obtain ⟨_, kept, _⟩ := (remote_failures_contained database "a" ⟨0, 1⟩).2
    (around fun _ => false) () () document rfl
  have contained := kept entry [] () sought (nothing _)
  constructor
  · rw [(contained.others moniker _ exported known).1, asked]
    decide +kernel
  · rw [contained.fewer moniker _ exported known (· = first) (around (· = first)) () () () rfl
      (nothing _), asked]
    · decide +kernel
    · rw [asked, asked]
      exact .cons ⟨rfl, _, rfl⟩ (.cons ⟨rfl, rfl⟩ .nil)

namespace UnpackagedSample

/-- The document of the other sample, but what is tried first belongs to no package. -/
def document : Document :=
  { OfferedSample.document with
    orderedRanges := [⟨⟨⟨0, 0⟩, ⟨0, 4⟩⟩, { ChainNode.empty with monikers := [⟨"9"⟩, ⟨"10"⟩] }⟩]
    monikers := OfferedSample.document.monikers.insert ⟨"9"⟩ ⟨"gomod", "x", .exported, none⟩ }

/-- A service that has read the document. -/
def service : Service :=
  let started : Service := .start "dumps" ⟨true, false, false⟩ ⟨1000, 1000, 1000, 1000⟩ .empty
    (.available OfferedSample.index) .builtin
  { started with documents := (started.documents.insert "f::a" document 1).2 }

end UnpackagedSample

/-- There need not be a list of references, and a moniker that belongs to no package may stand
before one that does. -/
theorem references_may_be_missing :
    (¬∀ (database : Database) (path : String) (position : Position) (s t : Service)
      (document : Document), Service.readDocument database path s = (.ok document, t) →
      ∃ found, (references database path position s).1 = .ok (some found)) ∧
    ¬∀ (w : Surroundings Unit) (database : Database) (path : String) (position : Position)
      (document : Document) (entry : RangeEntry) (found : List Location),
      Steps.amid w (Steps.readDocument database path) () = (.ok document, ()) →
      document.findRange? position = some entry →
      Steps.amid w (Steps.localReferences database document path entry) () = (.ok found, ()) →
      (∃ moniker ∈ document.findMonikers entry.node, moniker.kind = .exported ∧
        (packageKey? document moniker).isSome) →
      ∃ moniker ∈ document.findMonikers entry.node, moniker.kind = .exported ∧
        ∃ package, packageKey? document moniker = some package ∧
          (Steps.amid w (Steps.references database path position) ()).1 =
            .ok (some (found ++
              (w.consulted package moniker ()).flatMap (contribution moniker))) := by
  constructor
  · intro claim
    have blob : Service.readDocument OfferedSample.database "a" UnpackagedSample.service =
        (.ok UnpackagedSample.document, Reader.looked UnpackagedSample.service "f::a") := by
      rw [Reader.readDocument_run]
      rfl
    obtain ⟨found, outcome⟩ := claim OfferedSample.database "a" ⟨7, 0⟩ _ _ _ blob
    have nothing : UnpackagedSample.document.findRange? ⟨7, 0⟩ = none := by decide +kernel
    rw [references, bind_ok blob, nothing] at outcome
    cases outcome
  · intro claim
    let w : Surroundings Unit := .steady UnpackagedSample.document (.ok OfferedSample.index)
      fun _ => .ok OfferedSample.database
    let entry : RangeEntry :=
      ⟨⟨⟨0, 0⟩, ⟨0, 4⟩⟩, { ChainNode.empty with monikers := [⟨"9"⟩, ⟨"10"⟩] }⟩
    let unpackaged : Moniker := ⟨"gomod", "x", .exported, none⟩
    let packaged : Moniker := ⟨"npm", "p:lib:f", .exported, some ⟨"11"⟩⟩
    have sought : UnpackagedSample.document.findRange? ⟨0, 1⟩ = some entry := by decide +kernel
    have along : UnpackagedSample.document.findMonikers entry.node = [unpackaged, packaged] :=
      List.mergeSort_of_pairwise (by decide +kernel)
    have unreferenced : UnpackagedSample.document.reference? entry.node = none := by decide +kernel
    have known : packageKey? UnpackagedSample.document packaged = some ⟨"npm", "p", "1.0.0"⟩ := by
      decide +kernel
    have nothing : Steps.amid w (Steps.localReferences OfferedSample.database
        UnpackagedSample.document "a" entry) () = (.ok [], ()) := by
      rw [Steps.localReferences, unreferenced, along]
      rfl
    have blob : Steps.amid w (Steps.readDocument OfferedSample.database "a") () =
        (.ok UnpackagedSample.document, ()) := rfl
    obtain ⟨moniker, listed, _, package, offered, outcome⟩ := claim w OfferedSample.database "a"
      ⟨0, 1⟩ UnpackagedSample.document entry [] blob sought nothing
      ⟨packaged, by simp [along], rfl, by rw [known]; rfl⟩
    have alone := Steps.amid_references_alone blob sought nothing
      (by rw [exportOf?, along]; rfl)
    rw [along] at listed
    rcases List.mem_pair.mp listed with rfl | rfl
    · cases offered
    · cases known.symm.trans offered
      have asked : w.consulted ⟨"npm", "p", "1.0.0"⟩ packaged () =
          w.looks [OfferedSample.first, OfferedSample.second] () :=
        congrArg (w.looks · ()) OfferedSample.users_index
      have some := Option.some.inj (Except.ok.inj (alone.symm.trans outcome))
      rw [asked] at some
      exact absurd some (by decide +kernel)

end Query

end CodeNav
