import Polling.Document.Notification
import Polling.Proofs.Document.Configuration
import Polling.Proofs.EventId
import Polling.Proofs.Instant.RoundTrip

namespace Polling

namespace Json

variable {names : List String} {name other : String} {value : Option Json} {items : List Json}

theorem names_optionalField : ((optionalField name value).map Prod.fst).Sublist [name] := by
  cases value with
  | none => exact List.nil_sublist [name]
  | some v => exact List.Sublist.refl [name]

theorem names_listField : ((listField name items).map Prod.fst).Sublist [name] := by
  cases items with
  | nil => exact List.nil_sublist [name]
  | cons v vs => exact List.Sublist.refl [name]

/-- A record gives its fields if they are declared fields in the order of their declaration. -/
theorem fields?_record_of_sublist {members : Fields} (hn : names.Nodup)
    (hs : (members.map Prod.fst).Sublist names) :
    fields? names (record members) = some members :=
  fields?_record (hn.sublist hs) fun _ hm => hs.subset (List.mem_map_of_mem hm)

theorem nullable?_int {α : Type} {read : Json → Option α} (i : Int) :
    nullable? read (.int i) = (read (.int i)).map some := rfl

theorem nullable?_string {α : Type} {read : Json → Option α} (s : String) :
    nullable? read (text s) = (read (text s)).map some := rfl

namespace Fields

variable {α : Type} {front fields : Fields} {read : Json → Option α} {write : α → Json}

theorem lookup_append (h : (front.map Prod.fst).Sublist [other]) (hn : name ≠ other) :
    (front ++ fields).lookup name = fields.lookup name := by
  have absent : front.lookup name = none := by
    rw [List.lookup_eq_none_iff]
    intro f hf
    have member := h.subset (List.mem_map_of_mem hf)
    rw [List.mem_singleton] at member
    simpa [member] using hn
  rw [List.lookup_append, absent, Option.none_or]

/-- A field is looked for behind the fields of other names. -/
theorem required_append (h : (front.map Prod.fst).Sublist [other]) (hn : name ≠ other) :
    required (front ++ fields) name read = required fields name read := by
  rw [required, lookup_append h hn, required]

theorem withDefault_append {default : α} (h : (front.map Prod.fst).Sublist [other])
    (hn : name ≠ other) :
    withDefault (front ++ fields) name default read = withDefault fields name default read := by
  rw [withDefault, lookup_append h hn, withDefault]

theorem withDefault_of_other {default : α} (h : (front.map Prod.fst).Sublist [other])
    (hn : name ≠ other) : withDefault front name default read = some default := by
  rw [← List.append_nil front, withDefault_append h hn, withDefault_nil]

/-- A field that was left out because it has no value is read back as none. -/
theorem withDefault_optionalField {value : Option α}
    (h : ∀ a, nullable? read (write a) = some (some a))
    (hf : withDefault fields name none (nullable? read) = some none) :
    withDefault (optionalField name (value.map write) ++ fields) name none (nullable? read) =
      some value := by
  cases value with
  | none => exact hf
  | some a => exact withDefault_self.trans (h a)

theorem withDefault_optionalField_last {value : Option α}
    (h : ∀ a, nullable? read (write a) = some (some a)) :
    withDefault (optionalField name (value.map write)) name none (nullable? read) = some value := by
  rw [← List.append_nil (optionalField name _)]
  exact withDefault_optionalField h withDefault_nil

theorem withDefault_listField_append {as : List α} (h : ∀ a, read (write a) = some a)
    (hf : withDefault fields name [] (list? read) = some []) :
    withDefault (listField name (as.map write) ++ fields) name [] (list? read) = some as := by
  cases as with
  | nil => exact hf
  | cons a as => exact withDefault_self.trans (list?_map h (a :: as))

end Fields

end Json

open Json

@[simp] theorem EventId.ofJson?_toJson (id : EventId) : ofJson? id.toJson = some id :=
  ofString?_toString id

@[simp] theorem Instant.ofJson?_toJson (t : Instant) : ofJson? t.toJson = some t := by
  rw [toJson, ofJson?, text?_text, Option.bind_eq_bind, Option.bind_some, ofString?_toString]

@[simp] theorem NotificationKind.ofJson?_toJson (k : NotificationKind) :
    ofJson? k.toJson = some k :=
  ofName?_name k

theorem NodeId.ofJson?_toJson (n : NodeId) : ofJson? n.toJson = some n := by
  rw [toJson, ofJson?]
  simp -implicitDefEqProofs

theorem nullable?_node (n : NodeId) : nullable? NodeId.ofJson? n.toJson = some (some n) := by
  rw [NodeId.toJson, nullable?_int, ← NodeId.toJson, NodeId.ofJson?_toJson, Option.map_some]

theorem nullable?_address (a : Address) : nullable? Address.ofJson? a.toJson = some (some a) := by
  rw [Address.toJson, nullable?_string, ← Address.toJson, Address.ofJson?_toJson, Option.map_some]

/-- A transaction number is any signed number of 64 bits. -/
theorem nullable?_transaction (t : Int64) : (nullable? fun v => do
    return Int64.ofInt (← v.int? Int64.minValue.toInt Int64.maxValue.toInt)) (.int t.toInt) =
      some (some t) := by
  have range : Int64.minValue.toInt ≤ t.toInt ∧ t.toInt ≤ Int64.maxValue.toInt :=
    ⟨t.minValue_le_toInt, t.toInt_le⟩
  rw [nullable?_int, int?, if_pos range, Option.bind_eq_bind, Option.bind_some, Option.pure_def,
    Option.map_some, Int64.ofInt_toInt]

namespace Notification

theorem ofJson?_toJson (n : Notification) : ofJson? n.toJson = some n := by
  have transaction := nullable?_transaction
  simp only [Option.bind_eq_bind, Option.pure_def] at transaction
  rw [ofJson?, toJson, fields?_record_of_sublist]
  · simp only [List.append_assoc, List.cons_append, List.nil_append, Option.bind_eq_bind,
      Option.bind_some, Option.pure_def, Fields.required_self, Fields.required_cons,
      Fields.withDefault_cons, Fields.required_append names_optionalField,
      Fields.required_append names_listField, Fields.withDefault_append names_optionalField,
      Fields.withDefault_append names_listField, Fields.withDefault_of_other names_optionalField,
      Fields.withDefault_optionalField nullable?_node,
      Fields.withDefault_optionalField nullable?_address,
      Fields.withDefault_optionalField nullable?_text,
      Fields.withDefault_optionalField_last transaction,
      Fields.withDefault_listField_append Parameter.ofJson?_toJson,
      EventId.ofJson?_toJson, NotificationKind.ofJson?_toJson, Instant.ofJson?_toJson,
      ne_eq, String.reduceEq, not_false_eq_true]
  · decide
  · simp only [List.map_append]
    exact ((((((List.Sublist.refl ["id", "kind"]).append names_optionalField).append
      names_optionalField).append names_optionalField).append names_listField).append
      (List.Sublist.refl ["time"])).append names_optionalField

/-- A notification is read back from its JSON, in whatever layout that was written. -/
theorem parse?_layout (l : Layout) (n : Notification) :
    parse? (String.ofList (n.toJson.write l)) = some n := by
  have read : ofString? (String.ofList (n.toJson.write l)) = some n.toJson := by
    rw [ofString?, String.toList_ofList, ofChars?_write]
  rw [parse?, read, Option.bind_eq_bind, Option.bind_some, ofJson?_toJson]

/-- A notification is read back from its text as it was. -/
theorem parse?_compact (n : Notification) : parse? n.render = some n :=
  parse?_layout .line n

end Notification

end Polling
