/-
Module: CodeNav.Proofs.Service.Hands
Purpose: What a call has in its hands: the loads that it was told of, and what it has opened.
Main exports:
  Hand, Operation.hands, Steps.Within, Steps.within_call
-/
import CodeNav.Proofs.Service.Outcomes

namespace CodeNav

open Http (Request)

/-- What a call was handed by its operations, each with the target that it was asked for. -/
structure Hand where
  loads : List (Target × Nat)
  databases : List (Target × Database)

/-- At first a call has nothing. -/
def Hand.empty : Hand :=
  ⟨[], []⟩

namespace Operation

variable {β : Type}

/-- What a call has in its hands behind an operation that has come to a result. -/
def hands : Operation β → β → Hand → Hand
  | .lookUp target, some number, hand => { hand with loads := (target, number) :: hand.loads }
  | .insert target _, number, hand => { hand with loads := (target, number) :: hand.loads }
  | .settle target _, .ok database, hand =>
    { hand with databases := (target, database) :: hand.databases }
  | _, _, hand => hand

/-- An operation waits for no load but one that the call was told of, reads from no database but one
that it has opened, and keeps documents of the files of such databases alone. -/
def Within (hand : Hand) : Operation β → Prop
  | .settle target number => (target, number) ∈ hand.loads
  | .read database => ∃ target, (target, database) ∈ hand.databases
  | .keep key _ => ∃ target database path, (target, database) ∈ hand.databases ∧
      Target.isCommit target.commit ∧ key = Service.documentKey database.loaded.path path
  | _ => True

end Operation

namespace Steps

variable {α β : Type}

/-- Whatever the operations come to, all of them keep to what the call has in its hands, which in
the end has a property. -/
def Within (P : Hand → Prop) : Steps α → Hand → Prop
  | done _, hand => P hand
  | step operation next, hand =>
    operation.Within hand ∧ ∀ result, Within P (next result) (operation.hands result hand)

namespace Within

variable {P Q : Hand → Prop} {hand : Hand}

theorem mono {c : Steps α} (within : Within P c hand) (weaker : ∀ hand, P hand → Q hand) :
    Within Q c hand := by
  induction c generalizing hand with
  | done outcome => exact weaker hand within
  | step operation next ih => exact ⟨within.1, fun result => ih result (within.2 result)⟩

theorem bind {c : Steps α} {f : α → Steps β} (within : Within P c hand)
    (fails : ∀ hand, P hand → Q hand) (rest : ∀ a hand, P hand → Within Q (f a) hand) :
    Within Q (c >>= f) hand := by
  change Within Q (c.bind f) hand
  induction c generalizing hand with
  | done outcome =>
      cases outcome with
      | ok a => exact rest a hand within
      | error failure => exact fails hand within
  | step operation next ih => exact ⟨within.1, fun result => ih result (within.2 result)⟩

theorem attempt {c : Steps α} (within : Within P c hand) : Within P c.attempt hand := by
  induction c generalizing hand with
  | done outcome => exact within
  | step operation next ih => exact ⟨within.1, fun result => ih result (within.2 result)⟩

/-- An operation that hands nothing out. -/
theorem only {operation : Operation α} (within : operation.Within hand)
    (same : ∀ result, operation.hands result hand = hand) (holds : P hand) :
    Within P (Steps.only operation) hand :=
  ⟨within, fun result => (same result).symm ▸ holds⟩

end Within

/-- Waiting for a load ends with a failure or with a database in hand. -/
theorem within_settle {target : Target} {number : Nat} {hand : Hand} {P : Hand → Prop}
    {f : Except Failure Database → Steps α} (told : (target, number) ∈ hand.loads)
    (opened : ∀ database hand, (target, database) ∈ hand.databases →
      Within P (f (.ok database)) hand)
    (failed : ∀ failure hand, Within P (f (.error failure)) hand) :
    Within P ((settle target number).attempt >>= f) hand := by
  refine ⟨told, fun result => ?_⟩
  cases result with
  | ok database => exact opened database _ List.mem_cons_self
  | error failure => exact failed failure _

theorem within_opening {target : Target} {hand : Hand} {P : Hand → Prop}
    {f : Except Failure Database → Steps α}
    (opened : ∀ database hand, (target, database) ∈ hand.databases →
      Within P (f (.ok database)) hand)
    (failed : ∀ failure hand, Within P (f (.error failure)) hand) :
    Within P ((openDatabase target).attempt >>= f) hand := by
  refine ⟨trivial, fun found => ?_⟩
  cases found with
  | some number => exact within_settle List.mem_cons_self opened failed
  | none =>
      exact ⟨trivial, fun weight => ⟨trivial, fun number =>
        within_settle List.mem_cons_self opened failed⟩⟩

theorem within_source {target : Target} {database : Database} {hand : Hand}
    (opened : (target, database) ∈ hand.databases) :
    Within (fun hand => (target, database) ∈ hand.databases) (source database) hand :=
  ⟨⟨target, opened⟩, fun _ => opened⟩

variable [Gzip.Compressor]

/-- A document is kept under a key that names the file of the database that it was read from. -/
theorem within_readDocument {target : Target} {database : Database} {hand : Hand}
    (commit : Target.isCommit target.commit) (path : String)
    (opened : (target, database) ∈ hand.databases) :
    Within (fun hand => (target, database) ∈ hand.databases) (readDocument database path) hand := by
  refine ⟨trivial, fun found => ?_⟩
  cases found with
  | some document => exact opened
  | none =>
      refine (within_source opened).bind (fun _ => id) fun source hand opened => ?_
      cases source.document path with
      | error failure => exact opened
      | ok octets =>
          change Within _ (ofExcept (Document.decode octets) >>= fun document => do
            Steps.only (.keep (Service.documentKey database.loaded.path path) document)
            return document) hand
          cases Document.decode octets with
          | error failure => exact opened
          | ok document => exact ⟨⟨target, database, path, opened, commit, rfl⟩, fun _ => opened⟩

/-- The rules by which all parts of look-ups keep to what they have in their hands. -/
def withinHands (u : Service) : Rules u Hand where
  Comes P c _ Q := ∀ hand, P hand → Within Q c hand
  Idle _ := True
  Uses target database hand := (target, database) ∈ hand.databases
  idle _ := trivial
  done _ := fun _ holds => holds
  weaken comes stronger weaker := fun hand holds => (comes hand (stronger hand holds)).mono weaker
  bind comes weaker rest := fun hand holds =>
    (comes hand holds).bind weaker fun a hand holds => rest a hand holds
  attempt comes := fun hand holds => (comes hand holds).attempt
  hasData _ := fun _ _ => Within.only trivial (fun _ => rfl) trivial
  opening _ _ _ stored absent := fun _ _ =>
    within_opening (fun database hand opened => stored database hand opened)
      fun failure hand => absent failure hand trivial
  source _ _ := fun _ opened => within_source opened
  readDocument _ _ path commit := fun _ opened => within_readDocument commit path opened
  packageIndex := fun _ _ => ⟨trivial, fun _ => trivial⟩
  count _ := fun _ _ => Within.only trivial (fun _ => rfl) trivial

/-- A call keeps to what it has in its hands. -/
theorem within_call (u : Service) (elapsed : Binary64) (request : Request) :
    Within (fun _ => True) (call elapsed request) .empty := by
  have presence := (withinHands u).presence request .empty trivial
  unfold call
  split
  · exact (withinHands u).query elapsed request .empty trivial
  · exact presence

end Steps

end CodeNav
