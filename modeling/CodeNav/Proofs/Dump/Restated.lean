/-
Module: CodeNav.Proofs.Dump.Restated
Purpose: Lists of objects that state the same elements in other words lead to the same graph.
Main exports:
  Dump.Restated, Taken.read?_restated, Dump.Reworded, Taken.readAll?_reworded
-/
import CodeNav.Proofs.Dump.Statements
import Mathlib.Logic.Relation

namespace CodeNav

open Json (Node Value)

/-! ### Objects -/

namespace Dump

/-- Distinct keys, and the type of the element that is written. -/
def States (type : String) (members : List (Except Json.Cause String × Node)) : Prop :=
  (Node.keys members).Nodup ∧ (.ok "type", .string (.ok type)) ∈ members

/-- A natural number as it stands in a text. -/
def numeral (n : Nat) : Node :=
  .number (.ok (.integer n))

/-- The decimal digits of a natural number between quotes. -/
def digits (n : Nat) : Node :=
  .string (.ok (toString n))

section

variable {before after : List (Except Json.Cause String × Node)} {key type : String} {x : Node}

theorem keys_middle : (Node.keys (before ++ (.ok key, x) :: after)).Perm
    (key :: Node.keys (before ++ after)) :=
  List.perm_middle.filterMap _

/-- Keys stay distinct if a member has another value. -/
theorem States.nodup (states : States type (before ++ (.ok key, x) :: after)) (y : Node) :
    (Node.keys (before ++ (.ok key, y) :: after)).Nodup :=
  keys_middle.nodup_iff.mpr (keys_middle.nodup_iff.mp states.1)

/-- What the other members of an object bind. -/
theorem States.bindings (states : States type (before ++ (.ok key, x) :: after))
    (other : key ≠ "type") {depth : Nat} {bindings : List (String × Value)}
    (each : List.Forall₂ (Value.Binds depth) (before ++ after) bindings) :
    (key :: bindings.map Prod.fst).Nodup ∧ ("type", .string type) ∈ bindings := by
  obtain ⟨nodup, typed⟩ := states
  refine ⟨Node.keys_of_binds each ▸ keys_middle.nodup_iff.mp nodup, ?_⟩
  have among : (.ok "type", .string (.ok type)) ∈ before ++ after := by
    refine (List.mem_cons.mp (List.perm_middle.mem_iff.mp typed)).resolve_left fun same => ?_
    cases same
    exact other rfl
  obtain ⟨⟨name, value⟩, listed, same, read⟩ := Node.binds_mem each among
  cases same
  cases read
  exact listed

end

/-- Two objects state one element in different words. -/
inductive Restated : Node → Node → Prop
  /-- Members stand in another order. -/
  | reordered {a b : Node} : a.Reordered b → Restated a b
  /-- The identifier of a vertex is a text instead of a number. -/
  | vertexId (before after : List (Except Json.Cause String × Node)) (stop : Option Json.Fault)
      (n : Nat) : States "vertex" (before ++ (.ok "id", numeral n) :: after) →
      Restated (.record (before ++ (.ok "id", numeral n) :: after) stop)
        (.record (before ++ (.ok "id", digits n) :: after) stop)
  /-- An identifier in a member of an edge is a text instead of a number. -/
  | edgeId (before after : List (Except Json.Cause String × Node)) (stop : Option Json.Fault)
      {key : String} (n : Nat) : key ∈ Edge.idMembers →
      States "edge" (before ++ (.ok key, numeral n) :: after) →
      Restated (.record (before ++ (.ok key, numeral n) :: after) stop)
        (.record (before ++ (.ok key, digits n) :: after) stop)
  /-- An identifier in the list of targets is a text instead of a number. -/
  | targetId (before after : List (Except Json.Cause String × Node)) (stop : Option Json.Fault)
      (items more : List Node) (last : Option Json.Fault) (n : Nat) :
      States "edge" (before ++ (.ok "inVs", .list (items ++ numeral n :: more) last) :: after) →
      Restated
        (.record (before ++ (.ok "inVs", .list (items ++ numeral n :: more) last) :: after) stop)
        (.record (before ++ (.ok "inVs", .list (items ++ digits n :: more) last) :: after) stop)
  /-- The only target is listed instead of standing alone. -/
  | target (before after : List (Except Json.Cause String × Node)) (stop : Option Json.Fault)
      {x : Node} : States "edge" (before ++ (.ok "inV", x) :: after) →
      "inVs" ∉ Node.keys (before ++ (.ok "inV", x) :: after) → x ≠ .null →
      Restated (.record (before ++ (.ok "inV", x) :: after) stop)
        (.record (before ++ (.ok "inVs", .list [x] none) :: after) stop)

end Dump

namespace Taken

/-- Takes the element that an object writes into the graph, with `depth` levels of nesting before
the limit is hit. -/
def read? (depth : Nat) (taken : Taken) (object : Node) : Option Taken :=
  (Value.ofNode depth object).toOption.bind taken.take?

theorem read?_eq_some {depth : Nat} {taken after : Taken} {object : Node} :
    taken.read? depth object = some after ↔
      ∃ value, Value.ofNode depth object = .ok value ∧ taken.take? value = some after := by
  simp only [read?, Option.bind_eq_some_iff, Success.toOption_eq_some]

variable {depth : Nat} (taken : Taken)

theorem read?_reordered {a b : Node} (reordered : a.Reordered b) :
    taken.read? depth a = taken.read? depth b := by
  refine Option.ext fun after => ?_
  simp only [read?_eq_some, reordered.ofNode_iff depth]

theorem read?_record {key : String} {x : Node} {rest : List (Except Json.Cause String × Node)}
    {stop : Option Json.Fault} {result : Taken} :
    taken.read? (depth + 2) (.record ((.ok key, x) :: rest) stop) = some result ↔ stop = none ∧
      ∃ bindings, List.Forall₂ (Value.Binds (depth + 1)) rest bindings ∧
        ∃ v, Value.ofNode (depth + 1) x = .ok v ∧
          taken.take? (.record ((key, v) :: bindings)) = some result := by
  simp only [read?_eq_some, Value.ofNode_record_eq_ok, List.forall₂_cons_left_iff]
  constructor
  · rintro ⟨_, ⟨rfl, _, ⟨⟨name, v⟩, bindings, ⟨same, own⟩, each, rfl⟩, rfl⟩, read⟩
    cases same
    exact ⟨rfl, bindings, each, v, own, read⟩
  · rintro ⟨rfl, bindings, each, v, own, read⟩
    exact ⟨_, ⟨rfl, _, ⟨(key, v), bindings, ⟨rfl, own⟩, each, rfl⟩, rfl⟩, read⟩

/-- A member may be exchanged for another one that has the same effect beside all others. -/
theorem read?_exchange {before after : List (Except Json.Cause String × Node)}
    {key other : String} {x y : Node}
    (nodup : (Node.keys (before ++ (.ok key, x) :: after)).Nodup)
    (nodupToo : (Node.keys (before ++ (.ok other, y) :: after)).Nodup)
    (alike : ∀ bindings, List.Forall₂ (Value.Binds (depth + 1)) (before ++ after) bindings →
      ∀ result,
        (∃ v, Value.ofNode (depth + 1) x = .ok v ∧
          taken.take? (.record ((key, v) :: bindings)) = some result) ↔
        ∃ w, Value.ofNode (depth + 1) y = .ok w ∧
          taken.take? (.record ((other, w) :: bindings)) = some result)
    (stop : Option Json.Fault) :
    taken.read? (depth + 2) (.record (before ++ (.ok key, x) :: after) stop) =
      taken.read? (depth + 2) (.record (before ++ (.ok other, y) :: after) stop) := by
  rw [read?_reordered taken (.members stop nodup List.perm_middle),
    read?_reordered taken (.members stop nodupToo List.perm_middle)]
  refine Option.ext fun result => ?_
  rw [read?_record, read?_record]
  refine and_congr_right fun _ => exists_congr fun bindings => and_congr_right fun each => ?_
  exact alike bindings each result

/-- An identifier may be a text instead of a number. -/
theorem read?_digits {type key : String} {before after : List (Except Json.Cause String × Node)}
    {n : Nat} (states : Dump.States type (before ++ (.ok key, Dump.numeral n) :: after))
    (other : key ≠ "type")
    (alike : ∀ {v w : Value} {bindings : List (String × Value)},
      (key :: bindings.map Prod.fst).Nodup → ("type", .string type) ∈ bindings →
      VertexId.ofValue? v = VertexId.ofValue? w → v ≠ .null → w ≠ .null →
      taken.take? (.record ((key, v) :: bindings)) = taken.take? (.record ((key, w) :: bindings)))
    (stop : Option Json.Fault) :
    taken.read? (depth + 2) (.record (before ++ (.ok key, Dump.numeral n) :: after) stop) =
      taken.read? (depth + 2) (.record (before ++ (.ok key, Dump.digits n) :: after) stop) := by
  refine read?_exchange taken states.1 (states.nodup _) (fun bindings each result => ?_) stop
  obtain ⟨nodup, typed⟩ := states.bindings other each
  have number : Value.ofNode (depth + 1) (Dump.numeral n) = .ok (.number (.integer n)) := rfl
  have text : Value.ofNode (depth + 1) (Dump.digits n) = .ok (.string (toString n)) := rfl
  have same : VertexId.ofValue? (.number (.integer n)) = VertexId.ofValue? (.string (toString n)) :=
    rfl
  simp only [number, text, Except.ok.injEq, exists_eq_left', alike nodup typed same nofun nofun]

/-- So may one in the list of targets. -/
theorem read?_targetDigits {before after : List (Except Json.Cause String × Node)}
    {items more : List Node} {last : Option Json.Fault} {n : Nat}
    (states : Dump.States "edge"
      (before ++ (.ok "inVs", .list (items ++ Dump.numeral n :: more) last) :: after))
    (stop : Option Json.Fault) :
    taken.read? (depth + 3) (.record
        (before ++ (.ok "inVs", .list (items ++ Dump.numeral n :: more) last) :: after) stop) =
      taken.read? (depth + 3) (.record
        (before ++ (.ok "inVs", .list (items ++ Dump.digits n :: more) last) :: after) stop) := by
  refine read?_exchange taken states.1 (states.nodup _) (fun bindings each result => ?_) stop
  obtain ⟨nodup, typed⟩ := states.bindings (by decide) each
  have exchange {x y : Node} (stands : ∀ v, Value.ofNode (depth + 1) x = .ok v →
      ∃ w, Value.ofNode (depth + 1) y = .ok w ∧ VertexId.ofValue? v = VertexId.ofValue? w) :
      (∃ v, Value.ofNode (depth + 2) (.list (items ++ x :: more) last) = .ok v ∧
        taken.take? (.record (("inVs", v) :: bindings)) = some result) →
      ∃ w, Value.ofNode (depth + 2) (.list (items ++ y :: more) last) = .ok w ∧
        taken.take? (.record (("inVs", w) :: bindings)) = some result := by
    rintro ⟨_, read, took⟩
    obtain ⟨rfl, values, each, rfl⟩ := Value.ofNode_list_eq_ok.mp read
    obtain ⟨others, eachToo, same⟩ := Node.forall₂_exchange stands each
    rw [take?_targets nodup typed same] at took
    exact ⟨_, Value.ofNode_list_eq_ok.mpr ⟨rfl, others, eachToo, rfl⟩, took⟩
  constructor
  · refine exchange fun v read => ?_
    cases read
    exact ⟨.string (toString n), rfl, rfl⟩
  · refine exchange fun v read => ?_
    cases read
    exact ⟨.number (.integer n), rfl, rfl⟩

/-- The only target of an edge may be listed. -/
theorem read?_oneTarget {before after : List (Except Json.Cause String × Node)} {x : Node}
    (states : Dump.States "edge" (before ++ (.ok "inV", x) :: after))
    (noTargets : "inVs" ∉ Node.keys (before ++ (.ok "inV", x) :: after)) (present : x ≠ .null)
    (stop : Option Json.Fault) :
    taken.read? (depth + 3) (.record (before ++ (.ok "inV", x) :: after) stop) =
      taken.read? (depth + 3) (.record (before ++ (.ok "inVs", .list [x] none) :: after) stop) := by
  have others := Dump.keys_middle.nodup_iff.mp states.1
  have fresh : "inVs" ∉ Node.keys (before ++ after) := fun among =>
    noTargets (Dump.keys_middle.mem_iff.mpr (List.mem_cons_of_mem _ among))
  have nodupToo : (Node.keys (before ++ (.ok "inVs", .list [x] none) :: after)).Nodup :=
    Dump.keys_middle.nodup_iff.mpr (List.nodup_cons.mpr ⟨fresh, (List.nodup_cons.mp others).2⟩)
  refine read?_exchange taken states.1 nodupToo (fun bindings each result => ?_) stop
  obtain ⟨nodup, typed⟩ := states.bindings (by decide) each
  rw [← Node.keys_of_binds each] at fresh
  have nodupListed : ("inVs" :: bindings.map Prod.fst).Nodup :=
    List.nodup_cons.mpr ⟨fresh, (List.nodup_cons.mp nodup).2⟩
  have same {v : Value} (read : ∃ d, Value.ofNode d x = .ok v) :
      taken.take? (.record (("inV", v) :: bindings)) =
        taken.take? (.record (("inVs", .array [v]) :: bindings)) := by
    refine take?_oneTarget nodup fresh typed ?_ taken
    rintro rfl
    exact read.elim fun _ read => present (Value.eq_null_of_ofNode read)
  constructor
  · rintro ⟨v, read, took⟩
    rw [same ⟨_, read⟩] at took
    obtain ⟨id, writes⟩ := id_of_oneTarget nodupListed (List.nodup_cons.mp nodup).1 typed took
    have item := VertexId.ofNode_of_id read writes depth
    exact ⟨.array [v], Value.ofNode_list_eq_ok.mpr ⟨rfl, [v], .cons item .nil, rfl⟩, took⟩
  · rintro ⟨_, read, took⟩
    obtain ⟨_, _, each, rfl⟩ := Value.ofNode_list_eq_ok.mp read
    obtain ⟨v, _, item, none, rfl⟩ := List.forall₂_cons_left_iff.mp each
    cases none
    obtain ⟨id, writes⟩ := id_of_oneTarget nodupListed (List.nodup_cons.mp nodup).1 typed took
    exact ⟨v, VertexId.ofNode_of_id item writes (depth + 1), same ⟨_, item⟩ ▸ took⟩

/-- An object has the same effect in other words. -/
theorem read?_restated {a b : Node} (restated : Dump.Restated a b) (depth : Nat) :
    taken.read? (depth + 3) a = taken.read? (depth + 3) b := by
  cases restated with
  | reordered moved => exact read?_reordered taken moved
  | vertexId before after stop n states =>
      exact read?_digits taken states (by decide)
        (fun nodup typed same _ _ => take?_vertexId nodup typed same taken) stop
  | edgeId before after stop n among states =>
      have other : ∀ key ∈ Edge.idMembers, key ≠ "type" := by decide
      exact read?_digits taken states (other _ among)
        (fun nodup typed same present presentToo =>
          take?_edge_congr nodup typed (Edge.take?_id among same present presentToo) taken) stop
  | targetId before after stop items more last n states =>
      exact read?_targetDigits taken states stop
  | target before after stop states noTargets present =>
      exact read?_oneTarget taken states noTargets present stop

end Taken

/-! ### Lists of objects -/

namespace Dump

/-- Of two lists of objects one has an object in other words, or one more that is no element. -/
inductive Reworded : List Node → List Node → Prop
  | object (before after : List Node) {a b : Node} : Restated a b →
      Reworded (before ++ a :: after) (before ++ b :: after)
  | passedOver (before after : List Node) {object : Node} {value : Value} : object.nesting ≤ 126 →
      Value.ofNode 127 object = .ok value → Element.text? value "type" ≠ some "vertex" →
      Element.text? value "type" ≠ some "edge" →
      Reworded (before ++ after) (before ++ object :: after)

end Dump

namespace Taken

/-- Takes the elements that objects write into the graph. -/
def readAll? (depth : Nat) (taken : Taken) (objects : List Node) : Option Taken :=
  objects.foldlM (read? depth) taken

theorem readAll?_append (depth : Nat) (taken : Taken) (first second : List Node) :
    taken.readAll? depth (first ++ second) =
      (taken.readAll? depth first).bind (readAll? depth · second) :=
  List.foldlM_append

theorem readAll?_cons (depth : Nat) (taken : Taken) (object : Node) (rest : List Node) :
    taken.readAll? depth (object :: rest) =
      (taken.read? depth object).bind (readAll? depth · rest) :=
  List.foldlM_cons

/-- Nothing depends on depth beyond the nesting of the objects. -/
theorem readAll?_of_nesting {objects : List Node} {low high : Nat}
    (shallow : ∀ object ∈ objects, object.nesting ≤ min low high) (taken : Taken) :
    taken.readAll? (low + 1) objects = taken.readAll? (high + 1) objects := by
  induction objects generalizing taken with
  | nil => rfl
  | cons object rest ih =>
      obtain ⟨own, others⟩ := List.forall_mem_cons.mp shallow
      obtain ⟨fits, fitsToo⟩ := Nat.le_min.mp own
      have same : taken.read? (low + 1) object = taken.read? (high + 1) object := by
        rw [read?, read?, Value.ofNode_of_nesting object fits fitsToo]
      rw [readAll?_cons, readAll?_cons, same]
      exact congrArg _ (funext (ih others))

/-- A change of words changes nothing. -/
theorem readAll?_step {objects others : List Node} (reworded : Dump.Reworded objects others)
    {depth : Nat} (deep : 126 ≤ depth) (taken : Taken) :
    taken.readAll? (depth + 1) objects = taken.readAll? (depth + 1) others := by
  cases reworded with
  | object before after restated =>
      obtain ⟨more, rfl⟩ := Nat.exists_eq_add_of_le' (Nat.le_trans (by decide : 2 ≤ 126) deep)
      simp only [readAll?_append, readAll?_cons, read?_restated _ restated more]
  | @passedOver before after object value fits read noVertex noEdge =>
      have skipped (taken : Taken) : taken.read? (depth + 1) object = some taken := by
        rw [read?, ← Value.ofNode_of_nesting _ fits (Nat.le_trans fits deep), read]
        exact take?_other taken noVertex noEdge
      simp only [readAll?_append, readAll?_cons, skipped, Option.bind_some]

/-- However often the words are changed, to and fro, nothing changes. -/
theorem readAll?_reworded {objects others : List Node}
    (reworded : Relation.EqvGen Dump.Reworded objects others) {depth : Nat} (deep : 126 ≤ depth)
    (taken : Taken) :
    taken.readAll? (depth + 1) objects = taken.readAll? (depth + 1) others := by
  induction reworded with
  | rel _ _ step => exact readAll?_step step deep taken
  | refl => rfl
  | symm _ _ _ ih => exact ih.symm
  | trans _ _ _ _ _ first second => exact first.trans second

end Taken

end CodeNav
