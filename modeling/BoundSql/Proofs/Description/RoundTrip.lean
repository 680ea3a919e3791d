import BoundSql.Description.Expr
import BoundSql.Expr.Functions
import BoundSql.Proofs.Expr.Sources
import BoundSql.Proofs.Expr.Within

/-!
# Descriptions are read back

What is described is read back as it was: names, values, maps of texts, the heads of calls, and then
trees. `Expr.ofJsonWithin_toJson_succ` is the step: to read the description of a node is to put the node
together from what the descriptions of its sources are read as. Each of these is less high than that of
the node, so that the budget by which reading goes down is never used up (`Expr.ofJsonWithin_toJson`).

Floats that are not finite have no description of their own, and are excluded (`Expr.isFinite`).
-/

namespace BoundSql

/-! ### Names -/

/-- An arithmetic operator is read back from its description. -/
lemma ArithOp.ofJson?_name (op : ArithOp) : ArithOp.ofJson? (.string op.name) = some op :=
  ArithOp.ofName?_name op

/-- A comparison is read back from its description. -/
lemma CompareOp.ofJson?_name (op : CompareOp) : CompareOp.ofJson? (.string op.name) = some op :=
  CompareOp.ofName?_name op

/-- A connective is read back from its description. -/
lemma Connective.ofJson?_name (c : Connective) : Connective.ofJson? (.string c.name) = some c :=
  Connective.ofName?_name c

/-- The kind of an aggregate is read back from its description. -/
lemma AggregateKind.ofJson?_name (k : AggregateKind) :
    AggregateKind.ofJson? (.string k.name) = some k :=
  AggregateKind.ofName?_name k

/-- A sort direction is read back from its description. -/
lemma SortDirection.ofJson?_name (d : SortDirection) :
    SortDirection.ofJson? (.string d.name) = some d :=
  SortDirection.ofName?_name d

/-- A placement of nulls is read back from its description. -/
lemma NullPlacement.ofJson?_name (p : NullPlacement) :
    NullPlacement.ofJson? (.string p.name) = some p :=
  NullPlacement.ofName?_name p

/-! ### Values -/

/-- What may be missing is read back, as long as nothing that is there is described by `null`. -/
lemma Json.optional_ofOption {α : Type} {write : α → Json} {read : Json → Option α}
    (reads : ∀ a, read (write a) = some a) (notNull : ∀ a, write a ≠ .null) (a : Option α) :
    (Slot.given (.ofOption write a)).optional read = some a := by
  cases a with
  | none => rfl
  | some a =>
    have reads := reads a
    have notNull := notNull a
    rw [ofOption]
    generalize write a = j at reads notNull ⊢
    cases j with
    | null => exact absurd rfl notNull
    | _ => exact congrArg (Option.map some) reads

/-- Every unsigned number of 64 bits is in the range that is read. -/
lemma Json.uint64?_toNat (n : UInt64) : Json.uint64? (.integer n.toNat) = some n := by
  have bounds : 0 ≤ (n.toNat : Int) ∧ (n.toNat : Int) < UInt64.size :=
    ⟨Int.natCast_nonneg _, by exact_mod_cast n.toNat_lt_size⟩
  rw [uint64?, if_pos bounds, Int.toNat_natCast, UInt64.ofNat_toNat]

/-- Every signed number of 64 bits is in the range that is read. -/
lemma Json.int64?_toInt (n : Int64) : Json.int64? (.integer n.toInt) = some n := by
  rw [int64?, if_pos ⟨n.minValue_le_toInt, n.toInt_le⟩, Int64.ofInt_toInt]

/-- The type that a description may state. -/
lemma SqlType.optional_toJson (type : Option SqlType) :
    (Json.Slot.given (.ofOption SqlType.toJson type)).optional SqlType.ofJson? = some type :=
  Json.optional_ofOption SqlType.ofJson?_toJson nofun type

/-- A value is read back, unless it is a float that is not finite. -/
lemma Value.ofJson?_toJson {v : Value} (finite : ∀ x, v = .float x → x.isFinite = true) :
    Value.ofJson? v.toJson = some v := by
  cases v with
  | null | boolean | decimal | text => rfl
  | integer n =>
    calc Value.ofJson? (Value.integer n).toJson
      _ = (do return .integer (← Json.int64? (.integer n.toInt))) := rfl
      _ = some (.integer n) := by rw [Json.int64?_toInt]; rfl
  | float x =>
    rw [toJson, if_pos (finite x rfl)]
    rfl

namespace Dict

variable {α : Type}

/-- An entry behind all others in key order is put behind them. -/
lemma insertEntry_of_forall_lt {key : String} (value : α) {l : List (String × α)}
    (behind : ∀ entry ∈ l, entry.1 < key) : insertEntry key value l = l ++ [(key, value)] := by
  induction l with
  | nil => rfl
  | cons entry rest ih =>
    obtain ⟨first, later⟩ := List.forall_mem_cons.1 behind
    rw [insertEntry, if_neg (String.lt_asymm first), if_neg ?_, ih later]
    · rfl
    · rintro rfl
      exact String.lt_irrefl _ first

/-- Entries in key order that come behind those of a map are put behind them one by one. -/
lemma entries_foldl_insert {d : Dict α} {l : List (String × α)}
    (increasing : (d.entries ++ l).Pairwise (·.1 < ·.1)) :
    (l.foldl (fun d e => d.insert e.1 e.2) d).entries = d.entries ++ l := by
  induction l generalizing d with
  | nil => exact (List.append_nil _).symm
  | cons entry rest ih =>
    have behind : ∀ e ∈ d.entries, e.1 < entry.1 := fun e mem =>
      (List.pairwise_append.1 increasing).2.2 e mem entry List.mem_cons_self
    have entries : (d.insert entry.1 entry.2).entries = d.entries ++ [entry] :=
      insertEntry_of_forall_lt entry.2 behind
    have split : d.entries ++ entry :: rest = d.entries ++ [entry] ++ rest := by simp
    rw [List.foldl_cons, ih (by rwa [entries, ← split]), entries, split]

/-- A map is that of its own entries. -/
lemma ofList_entries (d : Dict α) : ofList d.entries = d :=
  ext (entries_foldl_insert d.increasing)

/-- A map of texts is read back. -/
lemma ofJson?_toJson (d : Dict String) : Dict.ofJson? d.toJson = some d := by
  have texts : (d.entries.map fun entry => (entry.1, Json.string entry.2)).mapM
      (fun member => member.2.string?.map (member.1, ·)) = some d.entries := by
    rw [List.mapM_map]
    exact List.mapM_pure.trans (congrArg some d.entries.map_id)
  calc Dict.ofJson? d.toJson
    _ = (do return ofList (← (d.entries.map fun entry => (entry.1, Json.string entry.2)).mapM
          fun member => member.2.string?.map (member.1, ·))) := rfl
    _ = some d := by
      rw [texts]
      exact congrArg some d.ofList_entries

end Dict

/-- The head of a call is read back, with the descriptions of its arguments. -/
lemma CallHead.ofJson?_toJson (head : CallHead) (args : List Json) :
    CallHead.ofJson? (head.toJson args) = some (head, args) := by
  have function : (Json.Slot.given (.ofOption .string head.function)).optional Json.string? =
      some head.function := by
    apply Json.optional_ofOption
    · intro text
      rfl
    · intro text
      nofun
  have arity : (Json.Slot.given (.ofOption (fun n : UInt64 => .integer n.toNat) head.arity)).optional
      Json.uint64? = some head.arity := Json.optional_ofOption Json.uint64?_toNat (fun _ => nofun) _
  calc CallHead.ofJson? (head.toJson args)
    _ = (do
          let function ← (Json.Slot.given (.ofOption .string head.function)).optional Json.string?
          let extra ← Dict.ofJson? head.extra.toJson
          let arity ← (Json.Slot.given
            (.ofOption (fun n : UInt64 => .integer n.toNat) head.arity)).optional Json.uint64?
          let type ← (Json.Slot.given (.ofOption SqlType.toJson head.type)).optional SqlType.ofJson?
          return ({ head with function, extra, arity, type }, args)) := rfl
    _ = some (head, args) := by
      rw [function, Dict.ofJson?_toJson, arity, SqlType.optional_toJson]
      rfl

/-! ### Trees -/

namespace Expr

/-- Whether the node is no literal of an infinite float or a NaN. -/
def isFinite : Expr → Bool
  | .literal (.float x) _ => x.isFinite
  | _ => true

/-- Several trees are described tree by tree. -/
lemma toJsonList_eq_map (es : List Expr) : toJsonList es = es.map toJson := by
  induction es with
  | nil => rfl
  | cons e rest ih => rw [toJsonList, ih, List.map_cons]

/-- Descriptions in a row are read one after another. -/
lemma mapM_ofJsonWithin (depth : Nat) (es : List Expr) :
    (toJsonList es).mapM (ofJsonWithin depth) =
      (es.map fun s => ofJsonWithin depth s.toJson).mapM id := by
  rw [toJsonList_eq_map, List.mapM_map, List.mapM_map]
  rfl

/-- Reading the description of a node is putting the node together from what the descriptions of its
sources are read as. -/
lemma ofJsonWithin_toJson_succ {e : Expr} (finite : e.isFinite = true) (depth : Nat) :
    ofJsonWithin (depth + 1) e.toJson = e.rebuild (e.sources.map fun s => ofJsonWithin depth s.toJson) := by
  -- the kind and the members of the record are found by their names, which computes; what is left are
  -- the parts that are described by a name, a number or `null`
  cases e with
  | field | star | ref => rfl
  | column tableAlias name type =>
    calc ofJsonWithin (depth + 1) (Expr.column tableAlias name type).toJson
      _ = (do
            return .column tableAlias name
              (← (Json.Slot.given (.ofOption SqlType.toJson type)).optional SqlType.ofJson?)) := rfl
      _ = some (.column tableAlias name type) := by rw [SqlType.optional_toJson]; rfl
  | literal value type =>
    have reads : Value.ofJson? value.toJson = some value := by
      apply Value.ofJson?_toJson
      rintro x rfl
      exact finite
    calc ofJsonWithin (depth + 1) (Expr.literal value type).toJson
      _ = (do
            return .literal (← Value.ofJson? value.toJson)
              (← (Json.Slot.given (.ofOption SqlType.toJson type)).optional SqlType.ofJson?)) := rfl
      _ = some (.literal value type) := by rw [reads, SqlType.optional_toJson]; rfl
  | arith left op right type =>
    calc ofJsonWithin (depth + 1) (Expr.arith left op right type).toJson
      _ = (do
            return .arith (← ofJsonWithin depth left.toJson) (← ArithOp.ofJson? (.string op.name))
              (← ofJsonWithin depth right.toJson)
              (← (Json.Slot.given (.ofOption SqlType.toJson type)).optional SqlType.ofJson?)) := rfl
      _ = (do
            return .arith (← ofJsonWithin depth left.toJson) op (← ofJsonWithin depth right.toJson)
              type) := by
        rw [ArithOp.ofJson?_name, SqlType.optional_toJson]
        rfl
  | call head args =>
    calc ofJsonWithin (depth + 1) (Expr.call head args).toJson
      _ = (do
            let called ← CallHead.ofJson? (head.toJson (toJsonList args))
            return .call called.1 (← called.2.mapM (ofJsonWithin depth))) := rfl
      _ = (do return .call head (← (toJsonList args).mapM (ofJsonWithin depth))) := by
        rw [CallHead.ofJson?_toJson]
        rfl
      _ = _ := by rw [mapM_ofJsonWithin]; rfl
  | aggregate kind head args distinct summary =>
    calc ofJsonWithin (depth + 1) (Expr.aggregate kind head args distinct summary).toJson
      _ = (do
            let called ← CallHead.ofJson? (head.toJson (toJsonList args))
            return .aggregate (← AggregateKind.ofJson? (.string kind.name)) called.1
              (← called.2.mapM (ofJsonWithin depth)) distinct summary) := rfl
      _ = (do
            return .aggregate kind head (← (toJsonList args).mapM (ofJsonWithin depth)) distinct
              summary) := by
        rw [CallHead.ofJson?_toJson, AggregateKind.ofJson?_name]
        rfl
      _ = _ := by rw [mapM_ofJsonWithin]; rfl
  | sorted source direction nulls =>
    calc ofJsonWithin (depth + 1) (Expr.sorted source direction nulls).toJson
      _ = (do
            return .sorted (← ofJsonWithin depth source.toJson)
              (← SortDirection.ofJson? (.string direction.name))
              (← NullPlacement.ofJson? (.string nulls.name))) := rfl
      _ = (do return .sorted (← ofJsonWithin depth source.toJson) direction nulls) := by
        rw [SortDirection.ofJson?_name, NullPlacement.ofJson?_name]
        rfl
  | compare left op right =>
    calc ofJsonWithin (depth + 1) (Expr.compare left op right).toJson
      _ = (do
            return .compare (← ofJsonWithin depth left.toJson)
              (← CompareOp.ofJson? (.string op.name)) (← ofJsonWithin depth right.toJson)) := rfl
      _ = (do
            return .compare (← ofJsonWithin depth left.toJson) op
              (← ofJsonWithin depth right.toJson)) := by
        rw [CompareOp.ofJson?_name]
        rfl
  | logic connective parts negated =>
    calc ofJsonWithin (depth + 1) (Expr.logic connective parts negated).toJson
      _ = (do
            return .logic (← Connective.ofJson? (.string connective.name))
              (← (toJsonList parts).mapM (ofJsonWithin depth)) negated) := rfl
      _ = (do return .logic connective (← (toJsonList parts).mapM (ofJsonWithin depth)) negated) := by
        rw [Connective.ofJson?_name]
        rfl
      _ = _ := by rw [mapM_ofJsonWithin]; rfl
  | typed source type =>
    calc ofJsonWithin (depth + 1) (Expr.typed source type).toJson
      _ = (do
            return .typed (← ofJsonWithin depth source.toJson) (← SqlType.ofJson? type.toJson)) := rfl
      _ = (do return .typed (← ofJsonWithin depth source.toJson) type) := by
        rw [SqlType.ofJson?_toJson]
        rfl

/-- The description of a source is less high than that of its node. -/
lemma height_toJson_lt {s e : Expr} (mem : s ∈ e.sources) : s.toJson.height < e.toJson.height := by
  have row {es : List Expr} (mem : s ∈ es) : s.toJson.height ≤ Json.heightItems (toJsonList es) := by
    induction es with
    | nil => cases mem
    | cons e rest ih =>
      rw [toJsonList, Json.heightItems]
      rcases List.mem_cons.1 mem with rfl | mem
      · exact Nat.le_max_left _ _
      · exact Nat.le_trans (ih mem) (Nat.le_max_right _ _)
  cases e with
  | field | column | literal | star => cases mem
  | ref | sorted | typed =>
    obtain rfl := List.mem_singleton.1 mem
    simp only [toJson, Json.height, Json.heightMembers]
    omega
  | arith | compare =>
    simp only [toJson, Json.height, Json.heightMembers]
    rcases List.mem_pair.1 mem with rfl | rfl <;> omega
  | call | aggregate | logic =>
    rw [sources] at mem
    have inside := row mem
    simp only [toJson, CallHead.toJson, Json.height, Json.heightMembers]
    omega

/-- A tree with finite floats is read back with any budget that is greater than the height of its
description. -/
lemma ofJsonWithin_toJson {e : Expr} {depth : Nat} (finite : e.Throughout (·.isFinite = true))
    (enough : e.toJson.height < depth) : ofJsonWithin depth e.toJson = some e := by
  induction e using Expr.induction generalizing depth with
  | node e ih =>
    cases depth with
    | zero => exact absurd enough (Nat.not_lt_zero _)
    | succ depth =>
      have sources : e.sources.map (fun s => ofJsonWithin depth s.toJson) = e.sources.map some := by
        refine List.map_congr_left fun s mem => ih s mem (finite.within (.of_mem mem)) ?_
        exact Nat.lt_of_lt_of_le (height_toJson_lt mem) (Nat.le_of_lt_succ enough)
      have row : (e.sources.map some).mapM id = some e.sources := by
        rw [List.mapM_map]
        exact List.mapM_pure.trans (congrArg some e.sources.map_id)
      rw [ofJsonWithin_toJson_succ (finite e .root), rebuild_eq e (List.length_map _), sources, row]
      exact congrArg some e.replaceSources_sources

/-- A tree whose floats are finite is read back from its description. -/
lemma ofJson?_toJson {e : Expr} (finite : e.Throughout (·.isFinite = true)) : ofJson? e.toJson = some e :=
  ofJsonWithin_toJson finite (Nat.lt_succ_self _)

/-- A tree with finite floats is read back from its description as it was, so that no other such tree
has the same description. -/
theorem description_round_trips {e : Expr} (finite : e.Throughout (·.isFinite = true)) :
    ofJson? e.toJson = some e ∧
      ∀ e' : Expr, e'.Throughout (·.isFinite = true) → e'.toJson = e.toJson → e' = e := by
  refine ⟨ofJson?_toJson finite, fun e' finite' same => ?_⟩
  have both : some e' = some e := by
    rw [← ofJson?_toJson finite', same, ofJson?_toJson finite]
  exact Option.some.inj both

/-- Whether the least pay is below a share that is given as a number, with an empty alternative. -/
def belowShare (share : Value) : Expr :=
  .typed (.logic .or [
    .compare (.aggregate .min (.ofAggregate .min) [.field "pay"] true false) .lt
      (.call (.unary "Abs" "ABS" (some .float)) [.ref "share" (.literal share none)]),
    .logic .and [] true] false) .boolean

/-- A whole float and the same integer stay apart. -/
theorem description_round_trips_belowShare :
    ofJson? (belowShare (.float 1.0)).toJson = some (belowShare (.float 1.0)) ∧
      (belowShare (.integer 1)).toJson ≠ (belowShare (.float 1.0)).toJson := by
  have finite : (belowShare (.float 1.0)).Throughout (·.isFinite = true) := by decide
  have finite' : (belowShare (.integer 1)).Throughout (·.isFinite = true) := by decide
  obtain ⟨back, unique⟩ := description_round_trips finite
  refine ⟨back, fun same => ?_⟩
  cases unique _ finite' same

end Expr

end BoundSql
