import KnowledgeGraph.Database.Repository
import KnowledgeGraph.Proofs.Graph.Labels
import KnowledgeGraph.Proofs.Number.Order
import KnowledgeGraph.Proofs.Value.Alike
import Mathlib.Data.List.Perm.Basic
/-!
# What is stored comes back

An entity is stored as a node under two labels, the one of all entities and
its type, and a relationship as an edge of its type. In one bag their
properties stand next to what identifies and dates them, in any order
(`Layout.Mixes`), so the names of those fields are reserved. A row that
returns a node or an edge in this layout (`Layout.EntityRow`,
`Layout.RelationshipRow`) is read as the entity or the relationship that
was stored, as long as no property has a reserved name: no field leaks into
the properties and no property is lost (`run_laidOut`).
-/

namespace KnowledgeGraph

open Checked

/-- An entity that was read, and so passed the rules of entities. -/
def Entity.IsRead (e : Entity) : Prop := ∃ record, Entity.ofRecord record = accept e

/-- A relationship that was read, and so passed the rules of relationships. -/
def Relationship.IsRead (r : Relationship) : Prop :=
  ∃ record, Relationship.ofRecord record = accept r

/-- Two entities with the same fields. Properties are in no order. -/
structure Entity.SameFields (e f : Entity) : Prop where
  id : e.id = f.id
  type : e.type = f.type
  properties : e.properties.Perm f.properties
  createdAt : e.createdAt = f.createdAt

/-- Two relationships with the same fields. Properties are in no order. -/
structure Relationship.SameFields (r s : Relationship) : Prop where
  id : r.id = s.id
  type : r.type = s.type
  sourceId : r.sourceId = s.sourceId
  targetId : r.targetId = s.targetId
  properties : r.properties.Perm s.properties
  weight : r.weight = s.weight
  directed : r.directed = s.directed
  createdAt : r.createdAt = s.createdAt

namespace Layout

/-! ## The layout -/

/-- How the moment stands in a bag at which something came to be: as a
timestamp, or as one of the database's own that converts to it. Where it
is not known there is no such field. -/
inductive Created : Option Timestamp → Record → Prop where
  | unknown : Created none []
  | kept (t : Timestamp) : Created (some t) [("created_at", .timestamp t)]
  | native (t : Timestamp) : Created (some t) [("created_at", .native (.ok t))]

/-- How a field stands in a bag that has a default: as it is, or not at all
if it is the default. -/
inductive Optional (name : String) (default : Value) : Value → Record → Prop where
  | kept (v : Value) : Optional name default v [(name, .value v)]
  | leftOut : Optional name default default []

/-- A bag that holds properties next to other fields, all in any order. -/
def Mixes (own : Record) (properties : Fields) (bag : Bag) : Prop :=
  bag.Perm ((own ++ Record.ofFields properties).map fun f => (.text f.1, f.2))

/-- What stands in a column of a row. -/
def Holds (row : Row) (name : String) (raw : Raw) : Prop :=
  ∃ columns, row.record? = some columns ∧ columns.lookup name = some raw

/-- The column of a row that holds properties next to other fields. -/
def HoldsMixed (row : Row) (own : Record) (properties : Fields) : Prop :=
  ∃ (raw : Raw) (bag : Bag), Holds row "props" raw ∧ raw.entries? = some bag ∧
    Mixes own properties bag

/-- The labels of a node: the one of all entities and its type, one before
the other. If they are the same, there may be just one. -/
inductive Labels (type : String) : List Raw → Prop where
  | typeLast : Labels type [.value (.text "Entity"), .value (.text type)]
  | typeFirst : Labels type [.value (.text type), .value (.text "Entity")]
  | alone (h : type = "Entity") : Labels type [.value (.text "Entity")]

/-- A row that returns the node of an entity. -/
structure EntityRow (e : Entity) (row : Row) : Prop where
  props : ∃ created, Created e.createdAt created ∧
    HoldsMixed row (("id", .value (.text e.id)) :: created) e.properties
  labels : ∃ raw labels, Holds row "labels" raw ∧ raw.items? = some labels ∧
    Labels e.type.text labels

/-- A row that returns the edge of a relationship. -/
structure RelationshipRow (r : Relationship) (row : Row) : Prop where
  props : ∃ weight directed created, Optional "weight" (.num .one) (.num r.weight) weight ∧
    Optional "directed" (.bool true) (.bool r.directed) directed ∧ Created r.createdAt created ∧
      HoldsMixed row (("id", .value (.text r.id)) :: (weight ++ directed ++ created)) r.properties
  type : Holds row "type" (.value (.text r.type.text))
  source : Holds row "source_id" (.value (.text r.sourceId))
  target : Holds row "target_id" (.value (.text r.targetId))

/-- The names that no property of an entity may have. -/
def entityNames : List String := ["id", "created_at"]

/-- The names that no property of a relationship may have. -/
def relationshipNames : List String := ["id", "weight", "directed", "created_at"]

/-- Properties under none of some names. -/
def Avoids (names : List String) (properties : Fields) : Prop :=
  ∀ name ∈ names, name ∉ properties.map Prod.fst

instance (names : List String) (properties : Fields) : Decidable (Avoids names properties) :=
  inferInstanceAs (Decidable (∀ name ∈ names, name ∉ properties.map Prod.fst))

/-! ## Fields next to others -/

section Fields

variable {α : Type} {fields own rest : List (String × α)} {key : String}

/-- What stands under a key of some fields is found among others, in any
order, that do not have the key. -/
theorem lookup_of_perm (h : fields.Perm (own ++ rest)) (hown : (own.map Prod.fst).Nodup)
    (hrest : key ∉ rest.map Prod.fst) : fields.lookup key = own.lookup key := by
  have hkeys : key ∈ fields.map Prod.fst ↔ key ∈ own.map Prod.fst := by
    rw [(h.map Prod.fst).mem_iff, List.map_append, List.mem_append, or_iff_left hrest]
  cases hfound : fields.lookup key with
  | none =>
    rw [lookup_eq_none_iff, hkeys] at hfound
    exact (lookup_eq_none_iff.2 hfound).symm
  | some a =>
    have hmem := h.mem_iff.1 (mem_of_lookup hfound)
    rw [List.mem_append] at hmem
    have hmem := hmem.resolve_right fun hin => hrest (List.mem_map.2 ⟨_, hin, rfl⟩)
    exact ((mem_iff_lookup hown).1 hmem).symm

/-- Fields under one name hide nothing under another. -/
theorem lookup_eq_none_of_ne {name : String} (h : (fields.map Prod.fst).Sublist [name])
    (hne : key ≠ name) : fields.lookup key = none :=
  lookup_eq_none_iff.2 fun hkey => hne (List.mem_singleton.1 (h.subset hkey))

end Fields

/-- Fields are the record of what stands under their names. -/
theorem named_map (record : Record) :
    Raw.named (record.map fun f => (.text f.1, f.2)) = record := by
  unfold Raw.named
  rw [List.filterMap_map]
  exact List.filterMap_some

theorem named_perm {bag other : Bag} (h : bag.Perm other) :
    (Raw.named bag).Perm (Raw.named other) :=
  h.filterMap _

section Mixes

variable {own : Record} {properties : Fields} {bag : Bag} {names : List String}

theorem map_fst_ofFields (properties : Fields) :
    (Record.ofFields properties).map Prod.fst = properties.map Prod.fst := by
  rw [Record.ofFields, List.map_map]
  rfl

/-- **Under a reserved name its own field is found.** -/
theorem find?_of_mixes (h : Mixes own properties bag) (hown : (own.map Prod.fst).Sublist names)
    (hnames : names.Nodup) (havoids : Avoids names properties) {name : String}
    (hname : name ∈ names) : bag.find? name = own.lookup name := by
  have hnamed : (Raw.named bag).Perm (own ++ Record.ofFields properties) := by
    have hmapped := named_perm h
    rwa [named_map] at hmapped
  refine lookup_of_perm hnamed (hown.nodup hnames) ?_
  rw [map_fst_ofFields]
  exact havoids name hname

/-- The fields whose names are not reserved are the properties. -/
theorem filter_own_append (hown : (own.map Prod.fst).Sublist names)
    (havoids : Avoids names properties) :
    (own ++ Record.ofFields properties).filter (fun f => !names.contains f.1) =
      Record.ofFields properties := by
  have hreserved : own.filter (fun f => !names.contains f.1) = [] := by
    rw [List.filter_eq_nil_iff]
    intro f hf
    simpa using hown.subset (List.mem_map_of_mem hf)
  have hfree : (Record.ofFields properties).filter (fun f => !names.contains f.1) =
      Record.ofFields properties := by
    rw [List.filter_eq_self, Record.ofFields, List.forall_mem_map]
    intro f hf
    have hfresh : f.1 ∉ names := fun hin => havoids f.1 hin (List.mem_map_of_mem hf)
    simpa using hfresh
  rw [List.filter_append, hreserved, hfree, List.nil_append]

/-- Names are left out as texts. -/
theorem without_map (names : List String) (record : Record) :
    Bag.without names (record.map fun f => (.text f.1, f.2)) =
      (record.filter fun f => !names.contains f.1).map fun f => (.text f.1, f.2) := by
  rw [Bag.without, List.filter_map]
  congr 2
  funext f
  rw [Function.comp_apply, Bool.not_inj_iff, Bool.eq_iff_iff, List.contains_iff_mem,
    List.contains_iff_mem, List.mem_map_of_injective fun _ _ => Value.text.inj]

/-- **All but the reserved names are the properties.** -/
theorem without_of_mixes (h : Mixes own properties bag) (hown : (own.map Prod.fst).Sublist names)
    (havoids : Avoids names properties) : ∃ kept : Fields, kept.Perm properties ∧
      bag.without names = kept.map fun f => (.text f.1, .value f.2) := by
  have hperm : (bag.without names).Perm (properties.map fun f => (.text f.1, .value f.2)) := by
    have hfiltered : (bag.without names).Perm _ := h.filter _
    rwa [← Bag.without, without_map, filter_own_append hown havoids, Record.ofFields,
      List.map_map] at hfiltered
  have hcomp : Relation.Comp
      (· = List.map (fun f : String × Value => (Value.text f.1, Raw.value f.2)) ·) List.Perm
      (bag.without names) properties := by
    rw [List.eq_map_comp_perm]
    exact hperm
  obtain ⟨kept, hmap, hkept⟩ := hcomp
  exact ⟨kept, hkept, hmap⟩

end Mixes

/-! ## Parts of a row -/

section Parts

variable {row : Row} {bag : Bag} {raw : Raw} {name : String} {created : Record}
variable {t : Option Timestamp}

theorem column_of_holds (h : Holds row name raw) : row.column name = .ok raw := by
  obtain ⟨columns, hcolumns, hraw⟩ := h
  rw [Row.column, hcolumns]
  dsimp only
  rw [hraw]
  rfl

/-- A column that is a map is a bag. -/
theorem bag_of_holds (h : Holds row name raw) (hbag : raw.entries? = some bag) :
    row.bag name = .ok bag := by
  rw [Row.bag, column_of_holds h]
  show Bag.ofRaw raw = _
  rw [Bag.ofRaw, hbag]

/-- A list comes as one value or as many. -/
theorem eq_list_of_items? {items : List Raw} (h : raw.items? = some items) :
    (∃ vs : List Value, raw = .value (.list vs) ∧ vs.map .value = items) ∨ raw = .list items := by
  unfold Raw.items? at h
  split at h
  · exact .inl ⟨_, rfl, Option.some.inj h⟩
  · exact .inr (congrArg Raw.list (Option.some.inj h))
  · cases h

/-- A list falls into its items. -/
theorem parts?_of_items? {items : List Raw} (h : raw.items? = some items) :
    raw.parts? = some items := by
  rcases eq_list_of_items? h with ⟨vs, rfl, rfl⟩ | rfl <;> rfl

/-- A column that is a list holds labels. -/
theorem labels_of_holds {labels : List Raw} (h : Holds row name raw)
    (hlabels : raw.items? = some labels) : row.labels name = .ok labels := by
  rw [Row.labels, column_of_holds h]
  show raw.parts?.elim _ _ = _
  rw [parts?_of_items? hlabels]
  rfl

/-- The label that is not the one of all entities is the type, or else the
type is that label. -/
theorem typeOfLabels_of_labels {type : String} {labels : List Raw} (h : Labels type labels) :
    Row.typeOfLabels labels = .value (.text type) := by
  unfold Row.typeOfLabels Row.isEntityLabel Row.entityLabel
  cases h with
  | typeLast => by_cases htype : type = "Entity" <;> simp [htype]
  | typeFirst => by_cases htype : type = "Entity" <;> simp [htype]
  | alone htype => simp [htype]

/-- The field of a record for the moment at which something came to be. -/
def momentField (t : Option Timestamp) : Record :=
  t.toList.map fun t => ("created_at", .timestamp t)

/-- **A moment is read as itself**, also where it is one of the database's
own. -/
theorem createdAt_of_created (h : Created t created)
    (hfind : bag.find? "created_at" = created.lookup "created_at") :
    Row.createdAt bag = .ok (momentField t) := by
  unfold Row.createdAt
  rw [hfind]
  cases h with
  | unknown => rfl
  | kept t => rfl
  | native t => rfl

theorem created_momentField (t : Option Timestamp) : Created t (momentField t) := by
  cases t with
  | none => exact .unknown
  | some t => exact .kept t

theorem withDefault_momentField (t : Option Timestamp) :
    (momentField t).withDefault "created_at" none (fun raw => (Reader.timestamp raw).map some) =
      accept t := by
  cases t <;> rfl

/-- A field that has a default is taken over as it stands. -/
theorem optional_of_optional {default v : Value} {field : Record}
    (h : Optional name default v field)
    (hfind : bag.find? name = field.lookup name) : Row.optional bag name = field := by
  unfold Row.optional
  rw [hfind]
  cases h with
  | kept v => rw [List.lookup_cons_self]; rfl
  | leftOut => rfl

end Parts

/-! ## Entities -/

theorem Created.keys {t : Option Timestamp} {created : Record} (h : Created t created) :
    (created.map Prod.fst).Sublist ["created_at"] := by
  cases h <;> simp

theorem Optional.keys {name : String} {default v : Value} {field : Record}
    (h : Optional name default v field) : (field.map Prod.fst).Sublist [name] := by
  cases h <;> simp

/-- Properties that pass do so in any order, as a bag. -/
theorem properties_of_perm {properties kept : Fields} (hkept : kept.Perm properties)
    (h : Reader.properties (.value (.map properties)) = accept properties) :
    Reader.properties (.map (kept.map fun f => (.text f.1, .value f.2))) = accept kept :=
  Reader.bag_fields fun f hf => Reader.properties_value_iff.1 h f (hkept.mem_iff.1 hf)

/-- An entity is read from its fields. -/
theorem ofRecord_entity (e : Entity) {raw : Raw} {properties : Fields}
    (h : Reader.properties raw = accept properties) :
    Entity.ofRecord ([("id", .value (.text e.id)), ("type", .value (.text e.type.text)),
      ("properties", raw)] ++ momentField e.createdAt) = accept { e with properties } := by
  have hid : Reader.text (.value (.text e.id)) = accept e.id := rfl
  have htype : (Reader.text (.value (.text e.type.text))).andThen (TypeLabel.check .entity) =
      accept e.type := TypeLabel.check_text .entity e.type
  rw [Entity.ofRecord, Record.required_eq_accept_iff.2 ⟨_, rfl, hid⟩,
    Record.required_eq_accept_iff.2 ⟨_, rfl, htype⟩,
    Record.withDefault_eq_accept_iff.2 (.inr ⟨_, rfl, h⟩), List.cons_append, List.cons_append,
    List.cons_append, List.nil_append, Record.withDefault_cons_of_ne (by decide),
    Record.withDefault_cons_of_ne (by decide), Record.withDefault_cons_of_ne (by decide),
    withDefault_momentField]
  rfl

/-- An entity was read exactly if its properties pass, which says how many
levels they have. -/
theorem entity_isRead_iff {e : Entity} :
    e.IsRead ↔ Reader.properties (.value (.map e.properties)) = accept e.properties := by
  refine ⟨fun ⟨record, h⟩ => ?_, fun h => ⟨_, ofRecord_entity e h⟩⟩
  rw [Entity.ofRecord] at h
  obtain ⟨_, _, htyped, -, rfl⟩ := seq_eq_accept_iff.1 h
  obtain ⟨_, properties, hfirst, hproperties, rfl⟩ := seq_eq_accept_iff.1 htyped
  obtain ⟨_, _, hnamed, -, rfl⟩ := seq_eq_accept_iff.1 hfirst
  obtain ⟨_, -, rfl⟩ := map_eq_accept_iff.1 hnamed
  exact Reader.properties_value_of_field hproperties

/-- **The entity of a row is the one that was stored.** -/
theorem entity_of_entityRow {e : Entity} {row : Row} (hread : e.IsRead)
    (havoids : Avoids entityNames e.properties) (hrow : EntityRow e row) :
    ∃ found, Row.entity row = .ok found ∧ e.SameFields found := by
  obtain ⟨⟨created, hcreated, raw, bag, hraw, hbag, hmixes⟩, hlabelled⟩ := hrow
  obtain ⟨marked, labels, hmarked, hlabels, htype⟩ := hlabelled
  have hkeys : ((("id", .value (.text e.id)) :: created : Record).map Prod.fst).Sublist
      entityNames := hcreated.keys.cons_cons "id"
  have hfind : ∀ name ∈ entityNames,
      bag.find? name = (("id", .value (.text e.id)) :: created : Record).lookup name :=
    fun name hname => find?_of_mixes hmixes hkeys (by decide) havoids hname
  have hid : bag.get "id" = .ok (.value (.text e.id)) := by
    rw [Bag.get, hfind "id" (by decide), List.lookup_cons_self]
    rfl
  have hmoment : Row.createdAt bag = .ok (momentField e.createdAt) := by
    refine createdAt_of_created hcreated ?_
    rw [hfind "created_at" (by decide), lookup_cons_of_ne (by decide)]
  obtain ⟨kept, hkept, hwithout⟩ := without_of_mixes hmixes hkeys havoids
  have hproperties := properties_of_perm hkept (entity_isRead_iff.1 hread)
  refine ⟨{ e with properties := kept }, ?_, ⟨rfl, rfl, hkept.symm, rfl⟩⟩
  have hrecord : Row.entity row = (Entity.ofRecord ([("id", .value (.text e.id)),
      ("type", .value (.text e.type.text)), ("properties", .map (bag.without entityNames))] ++
        momentField e.createdAt)).orFault .entity := by
    simp only [Row.entity, bag_of_holds hraw hbag, labels_of_holds hmarked hlabels, bind,
      Except.bind, hid, hmoment, typeOfLabels_of_labels htype, entityNames]
  rw [hrecord, hwithout, ofRecord_entity e hproperties]
  rfl

/-! ## Relationships -/

/-- A field that has a default is read as it stands, or as the default. -/
theorem withDefault_of_optional {α : Type} {name : String} {default v : Value} {field : Record}
    {reader : Reader α} {a b : α} (h : Optional name default v field)
    (ha : reader (.value default) = accept a) (hb : reader (.value v) = accept b) :
    field.withDefault name a reader = accept b := by
  cases h with
  | kept v => exact Record.withDefault_eq_accept_iff.2 (.inr ⟨_, List.lookup_cons_self, hb⟩)
  | leftOut =>
    obtain rfl := accept_inj.1 (ha.symm.trans hb)
    exact Record.withDefault_eq_accept_iff.2 (.inl ⟨rfl, rfl⟩)

/-- A double that is not negative is read as itself. -/
theorem nonNegative_num {x : Binary64} (h : Binary64.zero ≤ x) :
    Reader.nonNegative (.value (.num x)) = accept ⟨x, h⟩ :=
  andThen_eq_accept_iff.2 ⟨x, rfl, dif_pos h⟩

/-- Behind fields with other names, a weight, a direction and a moment are
each found under its own. -/
theorem lookup_parts (front : Record) {weight directed created : Record}
    (hfront : ∀ name ∈ ["weight", "directed", "created_at"], front.lookup name = none)
    (hweight : (weight.map Prod.fst).Sublist ["weight"])
    (hdirected : (directed.map Prod.fst).Sublist ["directed"])
    (hcreated : (created.map Prod.fst).Sublist ["created_at"]) :
    (front ++ weight ++ directed ++ created).lookup "weight" = weight.lookup "weight" ∧
      (front ++ weight ++ directed ++ created).lookup "directed" = directed.lookup "directed" ∧
      (front ++ weight ++ directed ++ created).lookup "created_at" =
        created.lookup "created_at" := by
  simp only [List.lookup_append]
  refine ⟨?_, ?_, ?_⟩
  · rw [hfront _ (by decide), lookup_eq_none_of_ne hdirected (by decide),
      lookup_eq_none_of_ne hcreated (by decide), Option.none_or, Option.or_none, Option.or_none]
  · rw [hfront _ (by decide), lookup_eq_none_of_ne hweight (by decide),
      lookup_eq_none_of_ne hcreated (by decide), Option.none_or, Option.none_or, Option.or_none]
  · rw [hfront _ (by decide), lookup_eq_none_of_ne hweight (by decide),
      lookup_eq_none_of_ne hdirected (by decide), Option.none_or, Option.none_or, Option.none_or]

/-- A relationship is read from its fields. -/
theorem ofRecord_relationship (r : Relationship) {raw : Raw} {weight directed : Record}
    {properties : Fields}
    (hweight : Optional "weight" (.num .one) (.num r.weight) weight)
    (hdirected : Optional "directed" (.bool true) (.bool r.directed) directed)
    (h : Reader.properties raw = accept properties) :
    Relationship.ofRecord ([("id", .value (.text r.id)), ("type", .value (.text r.type.text)),
      ("source_id", .value (.text r.sourceId)), ("target_id", .value (.text r.targetId)),
      ("properties", raw)] ++ weight ++ directed ++ momentField r.createdAt) =
        accept { r with properties } := by
  obtain ⟨hfoundWeight, hfoundDirected, hfoundMoment⟩ := lookup_parts
    [("id", .value (.text r.id)), ("type", .value (.text r.type.text)),
      ("source_id", .value (.text r.sourceId)), ("target_id", .value (.text r.targetId)),
      ("properties", raw)] (by simp [List.lookup_cons]) hweight.keys hdirected.keys
    (created_momentField r.createdAt).keys
  have htext : ∀ s, Reader.text (.value (.text s)) = accept s := fun _ => rfl
  have htype : (Reader.text (.value (.text r.type.text))).andThen (TypeLabel.check .relationship) =
      accept r.type := TypeLabel.check_text .relationship r.type
  have hone : Reader.nonNegative (.value (.num .one)) = accept Relationship.defaultWeight := by
    rw [Relationship.defaultWeight, nonNegative_num]
  have htruth : ∀ b, Reader.truth (.value (.bool b)) = accept b := fun _ => rfl
  rw [Relationship.ofRecord, Record.required_eq_accept_iff.2 ⟨_, rfl, htext r.id⟩,
    Record.required_eq_accept_iff.2 ⟨_, rfl, htype⟩,
    Record.required_eq_accept_iff.2 ⟨_, rfl, htext r.sourceId⟩,
    Record.required_eq_accept_iff.2 ⟨_, rfl, htext r.targetId⟩,
    Record.withDefault_eq_accept_iff.2 (.inr ⟨_, rfl, h⟩), Record.withDefault_congr hfoundWeight,
    withDefault_of_optional hweight hone (nonNegative_num r.weight_nonneg),
    Record.withDefault_congr hfoundDirected,
    withDefault_of_optional hdirected (htruth true) (htruth r.directed),
    Record.withDefault_congr hfoundMoment, withDefault_momentField]
  rfl

/-- A relationship, too, was read exactly if its properties pass. -/
theorem relationship_isRead_iff {r : Relationship} :
    r.IsRead ↔ Reader.properties (.value (.map r.properties)) = accept r.properties := by
  refine ⟨fun ⟨record, h⟩ => ?_, fun h => ⟨_, ofRecord_relationship r (.kept _) (.kept _) h⟩⟩
  rw [Relationship.ofRecord] at h
  -- the fields behind the properties, from the last on
  obtain ⟨_, _, hdirected, -, rfl⟩ := seq_eq_accept_iff.1 h
  obtain ⟨_, _, hweight, -, rfl⟩ := seq_eq_accept_iff.1 hdirected
  obtain ⟨_, _, hheld, -, rfl⟩ := seq_eq_accept_iff.1 hweight
  obtain ⟨_, properties, htarget, hproperties, rfl⟩ := seq_eq_accept_iff.1 hheld
  obtain ⟨_, _, hsource, -, rfl⟩ := seq_eq_accept_iff.1 htarget
  obtain ⟨_, _, htype, -, rfl⟩ := seq_eq_accept_iff.1 hsource
  obtain ⟨_, _, hid, -, rfl⟩ := seq_eq_accept_iff.1 htype
  obtain ⟨_, -, rfl⟩ := map_eq_accept_iff.1 hid
  exact Reader.properties_value_of_field hproperties

/-- **The relationship of a row is the one that was stored.** -/
theorem relationship_of_relationshipRow {r : Relationship} {row : Row} (hread : r.IsRead)
    (havoids : Avoids relationshipNames r.properties) (hrow : RelationshipRow r row) :
    ∃ found, Row.relationship row = .ok found ∧ r.SameFields found := by
  obtain ⟨⟨weight, directed, created, hweight, hdirected, hcreated, raw, bag, hraw, hbag, hmixes⟩,
    htype, hsource, htarget⟩ := hrow
  have hkeys : ((("id", .value (.text r.id)) :: (weight ++ directed ++ created) : Record).map
      Prod.fst).Sublist relationshipNames := by
    rw [List.map_cons, List.map_append, List.map_append]
    exact ((hweight.keys.append hdirected.keys).append hcreated.keys).cons_cons "id"
  have hfind : ∀ name ∈ relationshipNames, bag.find? name =
      (("id", .value (.text r.id)) :: (weight ++ directed ++ created) : Record).lookup name :=
    fun name hname => find?_of_mixes hmixes hkeys (by decide) havoids hname
  have hid : bag.get "id" = .ok (.value (.text r.id)) := by
    rw [Bag.get, hfind "id" (by decide), List.lookup_cons_self]
    rfl
  obtain ⟨hfoundWeight, hfoundDirected, hfoundMoment⟩ := lookup_parts
    [("id", .value (.text r.id))] (by simp [List.lookup_cons]) hweight.keys hdirected.keys
    hcreated.keys
  have hmoment : Row.createdAt bag = .ok (momentField r.createdAt) :=
    createdAt_of_created hcreated ((hfind _ (by decide)).trans hfoundMoment)
  have hweighed : Row.optional bag "weight" = weight :=
    optional_of_optional hweight ((hfind _ (by decide)).trans hfoundWeight)
  have hled : Row.optional bag "directed" = directed :=
    optional_of_optional hdirected ((hfind _ (by decide)).trans hfoundDirected)
  obtain ⟨kept, hkept, hwithout⟩ := without_of_mixes hmixes hkeys havoids
  have hproperties := properties_of_perm hkept (relationship_isRead_iff.1 hread)
  refine ⟨{ r with properties := kept }, ?_, ⟨rfl, rfl, rfl, rfl, hkept.symm, rfl, rfl, rfl⟩⟩
  have hrecord : Row.relationship row = (Relationship.ofRecord ([("id", .value (.text r.id)),
      ("type", .value (.text r.type.text)), ("source_id", .value (.text r.sourceId)),
      ("target_id", .value (.text r.targetId)),
      ("properties", .map (bag.without relationshipNames))] ++ weight ++ directed ++
        momentField r.createdAt)).orFault .relationship := by
    simp only [Row.relationship, bag_of_holds hraw hbag, column_of_holds htype,
      column_of_holds hsource, column_of_holds htarget, bind, Except.bind, hid, hmoment, hweighed,
      hled, relationshipNames]
  rw [hrecord, hwithout, ofRecord_relationship r hweight hdirected hproperties]
  rfl

/-- Rows are read one by one, in their order. -/
theorem mapM_of_forall₂ {relationships : List Relationship} {rows : List Row}
    (h : List.Forall₂ (fun r row => r.IsRead ∧ Avoids relationshipNames r.properties ∧
      RelationshipRow r row) relationships rows) :
    ∃ found, rows.mapM Row.relationship = .ok found ∧
      List.Forall₂ Relationship.SameFields relationships found := by
  induction h with
  | nil => exact ⟨[], rfl, .nil⟩
  | cons hrow _ ih =>
    obtain ⟨hread, havoids, hrow⟩ := hrow
    obtain ⟨first, hfirst, hsame⟩ := relationship_of_relationshipRow hread havoids hrow
    obtain ⟨rest, hrest, hothers⟩ := ih
    refine ⟨first :: rest, ?_, .cons hsame hothers⟩
    rw [List.mapM_cons, hfirst, hrest]
    rfl

end Layout

/-! ## What a repository returns -/

namespace Database

open Dialogue Layout

variable {answer : ℕ → (q : Statement) → Except Fault Rows} {token : Option Token}
variable {rows : Rows} {items : List Row}

/-- The first of some rows. -/
theorem first?_of_items? {row : Row} (h : rows.items? = some (row :: items)) :
    Rows.first? rows = .ok (some row) := by
  rcases eq_list_of_items? h with ⟨vs, rfl, hvs⟩ | rfl
  · cases vs with
    | nil => cases hvs
    | cons v vs =>
      obtain rfl := (List.cons.inj hvs).1
      rfl
  · rfl

theorem all_of_items? (h : rows.items? = some items) : Rows.all rows = .ok items := by
  rw [Rows.all, parts?_of_items? h]
  rfl

/-- What lets an operation begin is no obstacle to its first call. -/
theorem strike_of_checkToken (h : checkToken token 0 = .ok ()) (call : ℕ) :
    token.elim (.ok ()) (·.strike call) = .ok () := by
  cases token with
  | none => rfl
  | some t =>
    rw [Option.elim_some]
    rw [checkToken, Option.elim_some, Token.check] at h
    unfold Token.strike
    split at h
    · cases h
    · rfl

/-- One statement is put, and its answer read. -/
theorem run_ask {α : Type} {q : Statement} {read : Rows → Except Fault α} {a : α}
    (htoken : checkToken token 0 = .ok ()) (hanswer : answer 1 q = .ok rows)
    (hread : read rows = .ok a) :
    (poll (ask q fun rows => ofExcept (read rows)) : DatabaseDialogue α).run answer token =
      ⟨[q], .ok a⟩ := by
  rw [run, runFrom, htoken]
  dsimp only
  rw [runFrom, strike_of_checkToken htoken]
  simp only [Except.bind, Nat.zero_add, hanswer, hread]
  rfl

/-- **What is stored comes back.** Asked for an entity, a repository returns
the one whose row it is given, and asked for relationships it returns those
of its rows, in their order. -/
theorem run_laidOut (htoken : checkToken token 0 = .ok ()) (id : Value) :
    (∀ {e : Entity} {row : Row} {rows : Rows}, e.IsRead → Avoids entityNames e.properties →
      EntityRow e row → rows.items? = some [row] → answer 1 (.entity id) = .ok rows →
        ∃ found, (entity id).run answer token = ⟨[.entity id], .ok (some found)⟩ ∧
          e.SameFields found) ∧
      ∀ {stored : List Relationship} {items : List Row} {rows : Rows} {outgoing incoming : Value},
        (!outgoing.isVoid || !incoming.isVoid) →
        List.Forall₂ (fun r row => r.IsRead ∧ Avoids relationshipNames r.properties ∧
          RelationshipRow r row) stored items →
        rows.items? = some items → answer 1 (.relationships id outgoing incoming) = .ok rows →
          ∃ found, (relationships id outgoing incoming).run answer token =
            ⟨[.relationships id outgoing incoming], .ok found⟩ ∧
              List.Forall₂ Relationship.SameFields stored found := by
  constructor
  · intro e row rows hread havoids hrow hrows hanswer
    obtain ⟨found, hfound, hsame⟩ := entity_of_entityRow hread havoids hrow
    have hentity : entityOf rows = .ok (some found) := by
      rw [entityOf, first?_of_items? hrows]
      show some <$> Row.entity row = _
      rw [hfound]
      rfl
    exact ⟨found, run_ask htoken hanswer hentity, hsame⟩
  · intro stored items rows outgoing incoming hasked hstored hrows hanswer
    obtain ⟨found, hfound, hsame⟩ := mapM_of_forall₂ hstored
    have hrelationships : relationshipsOf rows = .ok found := by
      rw [relationshipsOf, all_of_items? hrows]
      exact hfound
    refine ⟨found, ?_, hsame⟩
    rw [relationships, if_pos hasked]
    exact run_ask htoken hanswer hrelationships

/-- An entity with its type in front of the label of all and a moment of
the database's own, and a relationship of default weight and direction, of
which the row says nothing. -/
theorem run_laidOut_mixed :
    let e : Entity := ⟨"e1", ⟨"Engineer", by decide⟩, [("name", .text "Ada"), ("weight", .int 2)],
      some ⟨2024, 1, 2, 0, 0, 0, 0, some 0⟩⟩
    let r : Relationship := ⟨"r1", ⟨"ADVISES", by decide⟩, "e1", "e2", [("since", .int 2020)],
      .one, true, none, Binary64.zero_le_one⟩
    let entityRow : Row := .map [
      (.text "props", .map [(.text "name", .value (.text "Ada")), (.text "weight", .value (.int 2)),
        (.text "id", .value (.text "e1")),
        (.text "created_at", .native (.ok ⟨2024, 1, 2, 0, 0, 0, 0, some 0⟩))]),
      (.text "labels", .value (.list [.text "Engineer", .text "Entity"]))]
    let edgeRow : Row := .map [
      (.text "props", .value (.map [("since", .int 2020), ("id", .text "r1")])),
      (.text "type", .value (.text "ADVISES")), (.text "source_id", .value (.text "e1")),
      (.text "target_id", .value (.text "e2"))]
    let answer : ℕ → Statement → Except Fault Rows := fun _ q =>
      .ok (.list [if q.parameters.length = 1 then entityRow else edgeRow])
    EntityRow e entityRow ∧ RelationshipRow r edgeRow ∧
      (∃ found, (entity (.text "e1")).run answer (some .live) =
        ⟨[.entity (.text "e1")], .ok (some found)⟩ ∧ e.SameFields found) ∧
      ∃ found, (relationships (.text "e1") (.bool true) (.bool false)).run answer none =
        ⟨[.relationships (.text "e1") (.bool true) (.bool false)], .ok found⟩ ∧
          List.Forall₂ Relationship.SameFields [r] found := by
  intro e r entityRow edgeRow answer
  have hentity : e.IsRead := entity_isRead_iff.2 rfl
  have hedge : r.IsRead := relationship_isRead_iff.2 rfl
  -- both bags name the properties first
  have hmixes : ∀ own properties, Mixes own properties
      ((Record.ofFields properties ++ own).map fun f => (.text f.1, f.2)) := fun _ _ =>
    List.perm_append_comm.map _
  have hentityRow : EntityRow e entityRow :=
    ⟨⟨_, .native _, _, _, ⟨_, rfl, rfl⟩, rfl, hmixes _ _⟩,
      _, _, ⟨_, rfl, rfl⟩, rfl, .typeFirst⟩
  have hweight : Optional "weight" (.num .one) (.num r.weight) [] := by
    dsimp only [r]
    exact .leftOut
  have hedgeRow : RelationshipRow r edgeRow :=
    ⟨⟨_, _, _, hweight, .leftOut, .unknown, _, _, ⟨_, rfl, rfl⟩, rfl, hmixes _ _⟩,
      ⟨_, rfl, rfl⟩, ⟨_, rfl, rfl⟩, ⟨_, rfl, rfl⟩⟩
  refine ⟨hentityRow, hedgeRow, ?_, ?_⟩
  · exact (run_laidOut rfl _).1 hentity (by decide) hentityRow rfl rfl
  · exact (run_laidOut rfl _).2 rfl (.cons ⟨hedge, by decide, hedgeRow⟩ .nil) rfl rfl

end Database

end KnowledgeGraph
